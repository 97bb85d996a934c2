import PrivateLog.Expression.Reader
import Mathlib.Data.Option.Basic

/-!
# Derivations

What it means that symbols are read from tokens, without the fuel of the reader: `Reads` has one rule for each kind of
symbol, and `Takes` one for each kind of terminal. The reader follows these rules (`reads_of_read`,
`takeTerminal?_eq_some_iff`). A terminal looks at no token but those that it takes (`exists_used_of_takeTerminal?`), so
what is taken stands in front of what is left. Whatever is read while nothing may be left over in brackets is read in the
same way if something may (`Reads.kept`).
-/

namespace PrivateLog.Expression

/-- Symbols are read from the beginning of some tokens. From left to right: the symbols, the form of what was read before, the
tokens, those that are taken, the form of what is read last, and the tokens left. -/
inductive Reads (leftovers : Leftovers) : List Symbol → Form → List Token → List Token → Form → List Token → Prop where
  | nil {found : Form} {tokens : List Token} : Reads leftovers [] found tokens [] found tokens
  | form {next found last : Form} {symbols : List Symbol} {tokens taken left : List Token} :
      Reads leftovers symbols next tokens taken last left →
      Reads leftovers (.form next :: symbols) found tokens taken last left
  | goal {goal : Goal} {production symbols : List Symbol} {found last : Form} {tokens taken left : List Token} :
      goal.production found tokens = some production →
      Reads leftovers (production ++ symbols) found tokens taken last left →
      Reads leftovers (.goal goal :: symbols) found tokens taken last left
  | group {delimiter : Delimiter} {goal : Goal} {symbols : List Symbol} {found innerLast last : Form}
      {body inner innerLeft rest taken left : List Token} :
      Reads leftovers [.goal goal] .plain body inner innerLast innerLeft → (leftovers = .kept ∨ innerLeft = []) →
      Reads leftovers symbols found rest taken last left →
      Reads leftovers (.group delimiter goal :: symbols) found (.group delimiter body :: rest)
        (.group delimiter inner :: taken) last left
  | terminal {symbol : Symbol} {symbols : List Symbol} {found last : Form} {tokens first rest taken left : List Token} :
      takeTerminal? symbol tokens = some (first, rest) → Reads leftovers symbols found rest taken last left →
      Reads leftovers (symbol :: symbols) found tokens (first ++ taken) last left

variable {leftovers : Leftovers} {symbols : List Symbol} {found last : Form} {tokens taken left : List Token}

/-- What the reader reads is read. -/
theorem reads_of_read {fuel : Nat} (h : read leftovers fuel symbols found tokens = some (taken, last, left)) :
    Reads leftovers symbols found tokens taken last left := by
  induction fuel generalizing symbols found tokens taken last left with
  | zero => cases h
  | succ fuel ih =>
    cases symbols with
    | nil =>
      cases h
      exact .nil
    | cons symbol symbols =>
      cases symbol with
      | form next => exact .form (ih h)
      | goal goal =>
        obtain ⟨production, hp, h⟩ := Option.bind_eq_some_iff.1 h
        exact .goal hp (ih h)
      | group delimiter goal =>
        cases tokens with
        | nil => cases h
        | cons token rest =>
          cases token with
          | group d body =>
            simp only [read, Option.bind_eq_bind, Option.bind_eq_some_iff, Option.guard_eq_some', List.isEmpty_iff] at h
            obtain ⟨-, rfl, ⟨inner, innerLast, innerLeft⟩, hinner, -, hleft, ⟨outer, last', left'⟩, houter, h⟩ := h
            cases h
            exact .group (ih hinner) hleft (ih houter)
          | ident | punct | literal => cases h
      | _ =>
        obtain ⟨⟨first, rest⟩, ht, h⟩ := Option.bind_eq_some_iff.1 h
        obtain ⟨⟨more, last', left'⟩, hmore, h⟩ := Option.bind_eq_some_iff.1 h
        cases h
        exact .terminal ht (ih hmore)

/-- If nothing may be left over in brackets, everything is read as if something might. -/
theorem Reads.kept (h : Reads leftovers symbols found tokens taken last left) :
    Reads .kept symbols found tokens taken last left := by
  induction h with
  | nil => exact .nil
  | form _ ih => exact .form ih
  | goal hp _ ih => exact .goal hp ih
  | group _ _ _ ihInner ihOuter => exact .group ihInner (Or.inl rfl) ihOuter
  | terminal ht _ ih => exact .terminal ht ih

/-! ## What a reading begins with -/

/-- Where a goal is read one of its productions is. -/
theorem Reads.of_goal {goal : Goal} (h : Reads leftovers (.goal goal :: symbols) found tokens taken last left) :
    ∃ production, goal.production found tokens = some production ∧
      Reads leftovers (production ++ symbols) found tokens taken last left := by
  cases h with
  | goal hp h => exact ⟨_, hp, h⟩
  | terminal ht => cases ht

/-- A goal is read by reading what is known to stand for it. -/
theorem Reads.replaced {goal : Goal} (h : Reads leftovers (.goal goal :: symbols) found tokens taken last left)
    (production : List Symbol) (hp : goal.production found tokens = some production) :
    Reads leftovers (production ++ symbols) found tokens taken last left := by
  obtain ⟨other, hother, h⟩ := h.of_goal
  rw [hp] at hother
  cases hother
  exact h

/-- A remark is read by reading on. -/
theorem Reads.of_form {next : Form} (h : Reads leftovers (.form next :: symbols) found tokens taken last left) :
    Reads leftovers symbols next tokens taken last left := by
  cases h with
  | form h => exact h
  | terminal ht => cases ht

/-- An operator is read by taking it. -/
theorem Reads.of_operator {text : String} (h : Reads leftovers (.operator text :: symbols) found tokens taken last left) :
    isOperator text tokens = true ∧ ∃ more, taken = operatorTokens text.toList ++ more ∧
      Reads leftovers symbols found (tokens.drop text.length) more last left := by
  cases h with
  | terminal ht h =>
    rw [takeTerminal?] at ht
    split at ht
    · rename_i hoperator
      cases ht
      exact ⟨hoperator, _, rfl, h⟩
    · cases ht

/-! ## What a terminal takes -/

/-- A terminal takes tokens from the front. From left to right: the symbol, the tokens, those that are taken, in their normal
spacing, and the tokens left. -/
inductive Takes : Symbol → List Token → List Token → List Token → Prop where
  | word {name : String} {left : List Token} : Takes (.word name) (.ident name :: left) [.ident name] left
  | name {name : String} {left : List Token} : isNameText name = true →
      Takes .name (.ident name :: left) [.ident name] left
  | operator {text : String} {tokens : List Token} : isOperator text tokens = true →
      Takes (.operator text) tokens (operatorTokens text.toList) (tokens.drop text.length)
  | literal {token : Token} {left : List Token} : isLiteral [token] = true →
      Takes .literal (token :: left) [token] left
  | lifetime {name : String} {left : List Token} :
      Takes .lifetime (.punct '\'' .joint :: .ident name :: left) [.punct '\'' .joint, .ident name] left
  | position {text : String} {positions : List Nat} {dotted : Bool} {left : List Token} :
      Number.fieldPath? text.toList = some (positions, dotted) →
      Takes .position (.literal text :: left) (positionTokens dotted positions) left
  | tree {delimiter : Delimiter} {body left : List Token} :
      Takes .tree (.group delimiter body :: left) [.group delimiter body] left

/-- Only the token in front decides whether a literal is ahead. -/
theorem isLiteral_cons (token : Token) (tokens : List Token) : isLiteral (token :: tokens) = isLiteral [token] := by
  cases token <;> rfl

/-- A lifetime is an apostrophe that is joined to an identifier. -/
theorem exists_of_isLifetime (h : isLifetime tokens = true) :
    ∃ name others, tokens = .punct '\'' .joint :: .ident name :: others := by
  unfold isLifetime at h
  split at h
  · exact ⟨_, _, rfl⟩
  · cases h

/-- The rules say what a terminal takes. -/
theorem takeTerminal?_eq_some_iff {symbol : Symbol} :
    takeTerminal? symbol tokens = some (taken, left) ↔ Takes symbol tokens taken left := by
  constructor
  · intro h
    revert h
    fun_cases takeTerminal? symbol tokens with
    | case1 name rest =>
      rintro ⟨⟩
      exact .word
    | case3 name rest hname =>
      rintro ⟨⟩
      exact .name hname
    | case5 text _ hoperator =>
      rintro ⟨⟩
      exact .operator hoperator
    | case7 token rest hliteral =>
      rintro ⟨⟩
      rw [isLiteral_cons] at hliteral
      exact .literal hliteral
    | case9 apostrophe name rest hlifetime =>
      rintro ⟨⟩
      obtain ⟨_, _, heq⟩ := exists_of_isLifetime hlifetime
      cases heq
      exact .lifetime
    | case11 text rest =>
      intro h
      obtain ⟨⟨positions, dotted⟩, hpath, h⟩ := Option.bind_eq_some_iff.1 h
      cases h
      exact .position hpath
    | case12 delimiter body rest =>
      rintro ⟨⟩
      exact .tree
    | case2 | case4 | case6 | case8 | case10 | case13 => exact nofun
  · intro h
    cases h with
    | word => exact if_pos rfl
    | name hname => exact if_pos hname
    | operator hoperator => rw [takeTerminal?, if_pos hoperator]
    | literal hliteral => rw [takeTerminal?, isLiteral_cons, if_pos hliteral]
    | lifetime => rfl
    | position hpath =>
      rw [takeTerminal?, hpath]
      rfl
    | tree => rfl

/-! ## What is taken stands in front -/

/-- An operator is ahead if its characters are, whatever stands behind them. -/
theorem exists_used_of_isSpelled {cs : List Char} (h : isSpelled cs tokens = true) :
    ∃ used, tokens = used ++ tokens.drop cs.length ∧ used.length = cs.length ∧
      ∀ more, isSpelled cs (used ++ more) = true := by
  induction cs generalizing tokens with
  | nil => exact ⟨[], rfl, rfl, fun _ => rfl⟩
  | cons c cs ih =>
    cases tokens with
    | nil => cases h
    | cons token tokens =>
      cases token with
      | punct d spacing =>
        rw [isSpelled, Bool.and_eq_true] at h
        obtain ⟨used, htokens, hlength, hmore⟩ := ih h.2
        refine ⟨.punct d spacing :: used, ?_, ?_, ?_⟩
        · rw [List.length_cons, List.drop_succ_cons, List.cons_append, ← htokens]
        · rw [List.length_cons, List.length_cons, hlength]
        · intro more
          rw [List.cons_append, isSpelled, h.1, hmore, Bool.and_self]
      | ident | literal | group => cases h

/-- A terminal takes tokens from the front, whatever stands behind them. -/
theorem exists_used_of_takeTerminal? {symbol : Symbol} (h : takeTerminal? symbol tokens = some (taken, left)) :
    ∃ used, tokens = used ++ left ∧ ∀ more, takeTerminal? symbol (used ++ more) = some (taken, more) := by
  simp only [takeTerminal?_eq_some_iff] at h ⊢
  cases h with
  | @operator text _ hoperator =>
    obtain ⟨used, htokens, hlength, hmore⟩ := exists_used_of_isSpelled hoperator
    rw [String.length_toList] at htokens hlength
    refine ⟨used, htokens, fun more => ?_⟩
    have htakes := Takes.operator (hmore more)
    rwa [← hlength, List.drop_left] at htakes
  | @word name => exact ⟨[.ident name], rfl, fun _ => .word⟩
  | @name name _ hname => exact ⟨[.ident name], rfl, fun _ => .name hname⟩
  | @literal token _ hliteral => exact ⟨[token], rfl, fun _ => .literal hliteral⟩
  | @lifetime name => exact ⟨[.punct '\'' .joint, .ident name], rfl, fun _ => .lifetime⟩
  | @position text _ _ _ hpath => exact ⟨[.literal text], rfl, fun _ => .position hpath⟩
  | @tree delimiter body => exact ⟨[.group delimiter body], rfl, fun _ => .tree⟩

/-- What is left is an end of the tokens. -/
theorem Reads.left_suffix (h : Reads leftovers symbols found tokens taken last left) : left <:+ tokens := by
  induction h with
  | nil => exact List.suffix_rfl
  | form _ ih => exact ih
  | goal _ _ ih => exact ih
  | group _ _ _ _ ih => exact ih.trans (List.suffix_cons _ _)
  | terminal ht _ ih =>
    obtain ⟨used, rfl, -⟩ := exists_used_of_takeTerminal? ht
    exact ih.trans (List.suffix_append used _)

end PrivateLog.Expression
