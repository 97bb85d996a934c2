import PrivateLog.Expansion
import PrivateLog.Proofs.Invocation.Parts
import PrivateLog.Proofs.Template.Acceptance
import PrivateLog.Proofs.Token.Naming
import Mathlib.Data.Option.Basic

/-!
# The locals of named arguments

The code of a logging call binds one hidden local for each named argument (`Expansion.bindingNamed_eq`). Arguments are told
apart by their names as written, but the local of a name leaves out the mark of raw identifiers. So two arguments share a
local exactly if their names differ by that mark alone (`Expression.localName_eq_iff`), which a logging call may well contain
(`Invocation.locals_not_nodup`). `Invocation.nodup_locals_iff` says what this means for a call that is accepted: when
a placeholder reads its argument alone, and when the locals are distinct.
-/

namespace PrivateLog

/-! ## Names and locals -/

namespace Expression

/-- One of the names is the raw form of the other. -/
def Twins (a b : String) : Prop :=
  b = "r#" ++ a ∨ a = "r#" ++ b

/-- A word is no raw name. -/
theorem withoutRaw_of_not_mem {word : List Char} (h : '#' ∉ word) : withoutRaw word = word := by
  unfold withoutRaw
  split
  · simp at h
  · rfl

/-- The local of an identifier is that of its word. -/
theorem withoutRaw_of_written {name : String} {word : List Char} (hword : '#' ∉ word)
    (h : name.toList = word ∨ name.toList = 'r' :: '#' :: word) : withoutRaw name.toList = word := by
  rcases h with h | h
  · rw [h, withoutRaw_of_not_mem hword]
  · rw [h, withoutRaw, withoutRaw_of_not_mem hword]

/-- A raw name, character by character. -/
theorem eq_raw_iff {a b : String} : b = "r#" ++ a ↔ b.toList = 'r' :: '#' :: a.toList := by
  rw [← String.toList_inj, String.toList_append]
  rfl

/-- Names have the same local exactly if they have the same characters without the mark of raw identifiers. -/
theorem localName_eq_iff_withoutRaw {a b : String} :
    localName a = localName b ↔ withoutRaw a.toList = withoutRaw b.toList := by
  simp [localName, ← String.toList_inj]

/-- Two identifiers have the same local exactly if they are written alike, or if one is the raw form of the other. -/
theorem localName_eq_iff {a b : String} (ha : IsWritten a) (hb : IsWritten b) :
    localName a = localName b ↔ a = b ∨ Twins a b := by
  obtain ⟨v, hv, hav⟩ := ha
  obtain ⟨w, hw, hbw⟩ := hb
  rw [localName_eq_iff_withoutRaw, withoutRaw_of_written hv hav, withoutRaw_of_written hw hbw, Twins, eq_raw_iff,
    eq_raw_iff, ← String.toList_inj]
  constructor
  · rintro rfl
    rcases hav with hav | hav <;> rcases hbw with hbw | hbw <;> simp [hav, hbw]
  · intro h
    have hword : ∀ {word rest : List Char}, '#' ∉ word → word ≠ 'r' :: '#' :: rest := by
      rintro word rest hmark rfl
      simp at hmark
    rcases hav with hav | hav <;> rcases hbw with hbw | hbw <;> rw [hav, hbw] at h
    · rcases h with h | h | h
      · exact h
      · exact absurd h (hword hw)
      · exact absurd h (hword hv)
    · rcases h with h | h | h
      · exact absurd h (hword hv)
      · simpa using h.symm
      · exact absurd h (hword hv)
    · rcases h with h | h | h
      · exact absurd h.symm (hword hw)
      · exact absurd h (hword hw)
      · simpa using h
    · simpa [hword hv, hword hw, eq_comm] using h

/-- No name is its own local. -/
theorem localName_ne (name : String) : localName name ≠ name := by
  intro h
  have htext := congrArg String.toList h
  rw [localName, String.toList_append, String.toList_ofList] at htext
  unfold withoutRaw at htext
  split at htext
  · rename_i heq
    rw [heq] at htext
    cases htext
  · have hlength := congrArg List.length htext
    simp at hlength
    omega

/-- No name is its own raw form. -/
theorem not_twins_self (name : String) : ¬Twins name name := by
  intro h
  have hraw := eq_raw_iff.1 (h.elim id id)
  have hlength := congrArg List.length hraw
  rw [List.length_cons, List.length_cons] at hlength
  omega

end Expression

/-! ## What the expansion binds -/

namespace Expansion

/-- The locals of the named arguments, each with the argument whose value it gets. -/
def bound (named : List NamedArgument) : List (String × NamedArgument) :=
  named.map fun argument => (Expression.localName argument.name, argument)

/-- The arguments whose value a local gets. -/
def boundTo (named : List NamedArgument) (name : String) : List NamedArgument :=
  ((bound named).filter (·.1 = name)).map (·.2)

/-- The code around the rendering is a `match` on the values that binds these locals. -/
theorem bindingNamed_eq {named : List NamedArgument} (h : named ≠ []) (code : List Token) :
    bindingNamed named code =
      word "match" ++ parentheses (terminated ((bound named).map fun entry => reference entry.2.value)) ++
        braces (parentheses (terminated ((bound named).map fun entry => word entry.1)) ++ operator "=>" ++ code ++
          operator ",") := by
  simp [bindingNamed, bound, h, Function.comp_def]

/-- A local gets the values of the arguments that it belongs to. -/
theorem boundTo_eq_filter (named : List NamedArgument) (name : String) :
    boundTo named name = named.filter fun argument => Expression.localName argument.name = name := by
  simp [boundTo, bound, List.filter_map, Function.comp_def]

end Expansion

/-! ## The names of a logging call -/

namespace Invocation

/-- The names of arguments are written as identifiers. -/
theorem isWritten_of_ofSource {source : String} {invocation : Invocation} (h : ofSource source = .ok invocation) :
    ∀ argument ∈ invocation.named, IsWritten argument.name := by
  obtain ⟨tokens, hlocate, hparts⟩ := exists_tokens_of_ofSource h
  exact fun argument hm => Token.isWritten_of_locate? hlocate (hparts.names argument hm)

/-- In a call whose template is accepted no two arguments have the same name. -/
theorem nodup_of_template {invocation : Invocation} {template : Template} (h : invocation.template = .ok template) :
    (invocation.named.map (·.name)).Nodup := by
  obtain ⟨hfirst, -⟩ := Template.read_eq_ok_iff.1 (template_eq_ok_iff.1 h)
  exact (Template.firstDuplicate?_eq_none_iff.1 hfirst).1

/-! ## When the locals are distinct -/

variable {named : List NamedArgument} {argument : NamedArgument}

/-- With distinct names, the arguments of a name are that one argument. -/
theorem filter_name_eq_singleton (hd : (named.map (·.name)).Nodup) (hm : argument ∈ named) :
    named.filter (fun other => other.name = argument.name) = [argument] := by
  induction named with
  | nil => cases hm
  | cons first named ih =>
    rw [List.map_cons, List.nodup_cons] at hd
    obtain ⟨hfirst, hd⟩ := hd
    rcases List.mem_cons.1 hm with rfl | hm
    · have hnone : named.filter (fun other => other.name = argument.name) = [] :=
        List.filter_eq_nil_iff.2 fun other ho hname =>
          hfirst (List.mem_map.2 ⟨other, ho, of_decide_eq_true hname⟩)
      simp [hnone]
    · have hne : first.name ≠ argument.name := fun h => hfirst (h ▸ List.mem_map.2 ⟨argument, hm, rfl⟩)
      simp [hne, ih hd hm]

/-- The local of an argument gets its value alone exactly if the argument has no twin. -/
theorem boundTo_eq_singleton_iff (hw : ∀ argument ∈ named, IsWritten argument.name)
    (hd : (named.map (·.name)).Nodup) (hm : argument ∈ named) :
    Expansion.boundTo named (Expression.localName argument.name) = [argument] ↔
      ∀ other ∈ named, ¬Expression.Twins argument.name other.name := by
  have hlocal : ∀ other ∈ named, Expression.localName other.name = Expression.localName argument.name ↔
      other.name = argument.name ∨ Expression.Twins argument.name other.name := by
    intro other ho
    rw [eq_comm, Expression.localName_eq_iff (hw argument hm) (hw other ho), eq_comm]
  rw [Expansion.boundTo_eq_filter]
  constructor
  · intro h other ho htwins
    have hother : other ∈ named.filter fun other =>
        Expression.localName other.name = Expression.localName argument.name :=
      List.mem_filter.2 ⟨ho, decide_eq_true ((hlocal other ho).2 (Or.inr htwins))⟩
    rw [h, List.mem_singleton] at hother
    exact Expression.not_twins_self _ (hother ▸ htwins)
  · intro h
    rw [← filter_name_eq_singleton hd hm]
    refine List.filter_congr fun other ho => decide_eq_decide.2 ?_
    rw [hlocal other ho, or_iff_left (h other ho)]

/-- The locals are distinct exactly if no two arguments are twins. -/
theorem nodup_locals_iff_of_written (hw : ∀ argument ∈ named, IsWritten argument.name)
    (hd : (named.map (·.name)).Nodup) :
    ((Expansion.bound named).map (·.1)).Nodup ↔
      ∀ argument ∈ named, ∀ other ∈ named, ¬Expression.Twins argument.name other.name := by
  have hmap : (Expansion.bound named).map (·.1) = named.map fun argument => Expression.localName argument.name := by
    simp [Expansion.bound, Function.comp_def]
  rw [hmap, List.nodup_map_iff_inj_on (List.Nodup.of_map _ hd)]
  refine forall₂_congr fun argument hm => forall₂_congr fun other ho => ?_
  rw [Expression.localName_eq_iff (hw argument hm) (hw other ho)]
  constructor
  · intro h htwins
    obtain rfl := h (Or.inr htwins)
    exact Expression.not_twins_self _ htwins
  · rintro h (hname | htwins)
    · exact List.inj_on_of_nodup_map hd hm ho hname
    · exact absurd htwins h

/-- What the code of an accepted call binds. A placeholder that names an argument reads its value alone exactly if no other
argument has the same name but for the mark of raw identifiers; and the locals are distinct exactly if no two arguments have.
-/
theorem nodup_locals_iff {source : String} {invocation : Invocation} {template : Template}
    (hs : ofSource source = .ok invocation) (ht : invocation.template = .ok template) :
    (∀ argument ∈ invocation.named,
      Expansion.boundTo invocation.named (Expression.localName argument.name) = [argument] ↔
        ∀ other ∈ invocation.named, ¬Expression.Twins argument.name other.name) ∧
      (((Expansion.bound invocation.named).map (·.1)).Nodup ↔
        ∀ argument ∈ invocation.named, ∀ other ∈ invocation.named, ¬Expression.Twins argument.name other.name) := by
  have hw := isWritten_of_ofSource hs
  have hd := nodup_of_template ht
  exact ⟨fun argument hm => boundTo_eq_singleton_iff hw hd hm, nodup_locals_iff_of_written hw hd⟩

/-- A call is accepted if its arguments have these names and its template is accepted. -/
theorem exists_of_names (source : String) (names : List String)
    (h : (fun invocation => (invocation.named.map (·.name), invocation.template.isOk)) <$> ofSource source =
      .ok (names, true)) :
    ∃ invocation template, ofSource source = .ok invocation ∧ invocation.template = .ok template ∧
      invocation.named.map (·.name) = names := by
  obtain ⟨invocation, hs, heq⟩ := Outcome.map_eq_ok_iff.1 h
  obtain ⟨hnames, htemplate⟩ := Prod.mk.inj heq
  cases ht : invocation.template with
  | error error =>
    rw [ht] at htemplate
    cases htemplate
  | ok template => exact ⟨invocation, template, hs, ht, hnames⟩

/-- A raw name and one that is not raw, used in the order in which they are not declared. -/
theorem nodup_locals_iff_raw :
    ∃ invocation template,
      ofSource "\"\x7br#type\x7d of \x7bpublic: job\x7d\", job = 1, r#type = 2" = .ok invocation ∧
        invocation.template = .ok template ∧ ((Expansion.bound invocation.named).map (·.1)).Nodup := by
  obtain ⟨invocation, template, hs, ht, hnames⟩ :=
    exists_of_names "\"\x7br#type\x7d of \x7bpublic: job\x7d\", job = 1, r#type = 2" ["job", "r#type"]
      (by decide +kernel)
  refine ⟨invocation, template, hs, ht, (nodup_locals_iff hs ht).2.2 fun argument hm other ho => ?_⟩
  have hargument := List.mem_map_of_mem (f := (·.name)) hm
  have hother := List.mem_map_of_mem (f := (·.name)) ho
  rw [hnames] at hargument hother
  simp only [List.mem_cons, List.not_mem_nil, or_false] at hargument hother
  rcases hargument with ha | ha <;> rcases hother with hb | hb <;> rw [ha, hb, Expression.Twins] <;> decide

/-- A name and its raw form pass for two names, and the code binds one local twice. -/
theorem locals_not_nodup :
    ∃ invocation template, ofSource "\"\x7bx\x7d \x7br#x\x7d\", x = 1, r#x = 2" = .ok invocation ∧
      invocation.template = .ok template ∧
      (Expansion.bound invocation.named).map (·.1) = ["__loggable_x", "__loggable_x"] ∧
      ¬((Expansion.bound invocation.named).map (·.1)).Nodup := by
  obtain ⟨invocation, template, hs, ht, hnames⟩ :=
    exists_of_names "\"\x7bx\x7d \x7br#x\x7d\", x = 1, r#x = 2" ["x", "r#x"] (by decide +kernel)
  have hlocals : (Expansion.bound invocation.named).map (·.1) =
      (invocation.named.map (·.name)).map Expression.localName := by
    simp [Expansion.bound, Function.comp_def]
  refine ⟨invocation, template, hs, ht, ?_⟩
  rw [hlocals, hnames]
  decide

end Invocation

end PrivateLog
