import PrivateLog.Proofs.Template.Cutting
import PrivateLog.Proofs.Token.Consuming

/-!
# Braces that are brackets

Source text in which every brace is a bracket is balanced (`balanced_of_bracketed`): reading it closes every group that it
opens. A brace inside a literal or a comment opens and closes nothing, and may leave source text unbalanced.
-/

namespace PrivateLog.Template

open Text

/-- Every brace of the text is a bracket: none is a part of a longer piece. -/
inductive Bracketed : List Char → Prop where
  | nil : Bracketed []
  | opening {text : List Char} : Bracketed text → Bracketed ('{' :: text)
  | closing {text : List Char} : Bracketed text → Bracketed ('}' :: text)
  | piece {taken rest : List Char} {lexemes : List Lexeme} : Lexeme.piece (taken ++ rest) = some (lexemes, rest) →
      (∀ c ∈ taken, c ≠ '{' ∧ c ≠ '}') → Bracketed rest → Bracketed (taken ++ rest)

/-- A text without braces in front does not change what is closed. -/
theorem closes_append_iff {taken : List Char} (h : ∀ c ∈ taken, c ≠ '{' ∧ c ≠ '}') {depth : Nat} {rest : List Char} :
    Closes depth (taken ++ rest) ↔ Closes depth rest := by
  induction taken with
  | nil => exact Iff.rfl
  | cons c taken ih =>
    obtain ⟨⟨ho, hc⟩, htaken⟩ := List.forall_mem_cons.1 h
    have hcount : [c].count '{' + depth = [c].count '}' + depth := by simp [ho, hc]
    rw [List.cons_append, closes_cons_iff hcount, ih htaken]

/-! ## Lexemes that are braces -/

/-- Whether a lexeme is a brace. -/
def isBrace : Lexeme → Bool
  | .opening delimiter => delimiter = .brace
  | .closing delimiter => delimiter = .brace
  | .leaf _ => false

/-- Whether the lexemes close all braces that they open and those that are open before. -/
def closesBraces : List Lexeme → Nat → Bool
  | [], depth => depth = 0
  | .opening .brace :: lexemes, depth => closesBraces lexemes (depth + 1)
  | .closing .brace :: lexemes, depth + 1 => closesBraces lexemes depth
  | .closing .brace :: _, 0 => false
  | _ :: lexemes, depth => closesBraces lexemes depth

/-- Other lexemes in front do not change this. -/
theorem closesBraces_append {first more : List Lexeme} (h : ∀ lexeme ∈ first, isBrace lexeme = false) (depth : Nat) :
    closesBraces (first ++ more) depth = closesBraces more depth := by
  induction first with
  | nil => rfl
  | cons lexeme first ih =>
    obtain ⟨hlexeme, hfirst⟩ := List.forall_mem_cons.1 h
    rw [List.cons_append, ← ih hfirst]
    cases lexeme with
    | leaf token => rfl
    | opening delimiter => cases delimiter <;> first | rfl | cases hlexeme
    | closing delimiter => cases delimiter <;> first | rfl | cases hlexeme

/-- The number of groups in braces that are open. -/
def openBraces (pending : List Token.OpenGroup) : Nat :=
  pending.countP (·.delimiter = .brace)

/-- Lexemes that make up tokens close all braces. -/
theorem closesBraces_of_nest {pending : List Token.OpenGroup} {done tokens : List (Located Token)}
    {lexemes : List (Located Lexeme)} (h : Token.nest pending done lexemes = some tokens) :
    closesBraces (lexemes.map (·.value)) (openBraces pending) = true := by
  induction lexemes generalizing pending done with
  | nil =>
    cases pending with
    | nil => rfl
    | cons innermost pending => cases h
  | cons located lexemes ih =>
    obtain ⟨lexeme, span⟩ := located
    rw [List.map_cons]
    cases lexeme with
    | leaf token => exact ih h
    | opening delimiter =>
      rw [Token.nest] at h
      have hrest := ih h
      cases delimiter <;> simpa [openBraces, closesBraces] using hrest
    | closing delimiter =>
      cases pending with
      | nil => cases h
      | cons innermost pending =>
        obtain ⟨open', start, before⟩ := innermost
        rw [Token.nest] at h
        split at h
        · rename_i hsame
          have hrest := ih h
          cases hsame
          cases open' <;> simpa [openBraces, closesBraces] using hrest
        · cases h

/-! ## Scanning brackets -/

/-- Only a brace yields a brace. -/
theorem isBrace_of_piece {taken rest : List Char} {lexemes : List Lexeme}
    (h : Lexeme.piece (taken ++ rest) = some (lexemes, rest)) (hnone : ∀ c ∈ taken, c ≠ '{' ∧ c ≠ '}') :
    ∀ lexeme ∈ lexemes, isBrace lexeme = false := by
  have hmark : ∀ {c : Char}, taken ++ rest = c :: rest → c ∈ taken := by
    intro c htext
    obtain rfl : taken = [c] := List.append_cancel_right htext
    exact List.mem_cons_self
  cases (Lexeme.yields_of_piece h).2 with
  | gap => exact fun lexeme hlexeme => absurd hlexeme List.not_mem_nil
  | @documentation inner body _ hdocumentation =>
    obtain ⟨_, -, hdocumentation⟩ := Option.bind_eq_some_iff.1 hdocumentation
    cases hdocumentation
    cases inner <;> simp [isBrace]
  | leaf hleaf => simp [isBrace]
  | @opening delimiter htext =>
    cases delimiter with
    | brace => exact absurd rfl (hnone '{' (hmark htext)).1
    | _ => simp [isBrace]
  | @closing delimiter htext =>
    cases delimiter with
    | brace => exact absurd rfl (hnone '}' (hmark htext)).2
    | _ => simp [isBrace]

/-- What the lexemes of a text close, the text closes, if every brace is a bracket. -/
theorem closes_of_bracketed {text : List Char} (h : Bracketed text) {lexemes : List Lexeme}
    (hscans : Lexeme.Scans text lexemes) {depth : Nat} (hcloses : closesBraces lexemes depth = true) :
    Closes depth text := by
  induction h generalizing lexemes depth with
  | nil =>
    cases hscans with
    | nil => exact closes_nil_iff.2 (of_decide_eq_true hcloses)
    | cons hpiece => cases hpiece
  | opening _ ih =>
    obtain ⟨more, rfl, hmore⟩ := hscans.of_piece rfl
    exact (closes_cons_iff (by simp; omega)).2 (ih hmore hcloses)
  | closing _ ih =>
    obtain ⟨more, rfl, hmore⟩ := hscans.of_piece rfl
    cases depth with
    | zero => cases hcloses
    | succ depth => exact (closes_cons_iff (by simp; omega)).2 (ih hmore hcloses)
  | piece hpiece hnone _ ih =>
    obtain ⟨more, rfl, hmore⟩ := hscans.of_piece hpiece
    rw [closesBraces_append (isBrace_of_piece hpiece hnone)] at hcloses
    exact (closes_append_iff hnone).2 (ih hmore hcloses)

/-- Source text in which every brace is a bracket is balanced. -/
theorem balanced_of_bracketed {text : List Char} (h : Bracketed text) {tokens : List Token}
    (hread : Token.read? text = some tokens) : Balanced text := by
  obtain ⟨located, hlocate, -⟩ := Option.map_eq_some_iff.1 hread
  obtain ⟨lexemes, hscan, hnest⟩ := Option.bind_eq_some_iff.1 hlocate
  have hmark : text.head? ≠ some '\uFEFF' := by
    intro hhead
    cases h with
    | nil => cases hhead
    | opening _ => cases hhead
    | closing _ => cases hhead
    | piece hpiece _ _ =>
      obtain ⟨rest, hrest⟩ := List.head?_eq_some_iff.1 hhead
      rw [hrest, Lexeme.piece_mark] at hpiece
      cases hpiece
  exact balanced_iff_closes.2 (closes_of_bracketed h (Lexeme.scans_of_scan hmark hscan) (closesBraces_of_nest hnest))

end PrivateLog.Template
