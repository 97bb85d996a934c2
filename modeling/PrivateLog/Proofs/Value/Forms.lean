import PrivateLog.Value.Redaction

/-!
# The two forms of a value

A value is written in full or redacted (`form`), and a list in either form is made up of its elements in this form, with a
comma between them (`form_list`). The lemmas on lists with a separator between them say what is in such a list.
-/

namespace PrivateLog.Value

/-! ## Lists with a separator between them -/

section
variable {α β : Type} {separator : List α}

/-- Lists with a separator between them, one behind another: the first, and the others with a separator in front of each. -/
theorem flatten_intersperse_cons (separator first : List α) (rest : List (List α)) :
    ((first :: rest).intersperse separator).flatten = first ++ rest.flatMap (separator ++ ·) := by
  induction rest generalizing first with
  | nil => simp
  | cons next rest ih => rw [List.intersperse_cons_cons, List.flatten_cons, List.flatten_cons, ih]; simp

/-- What is no separator is in one of the lists. -/
theorem mem_flatten_intersperse_iff {parts : List (List α)} {a : α} (ha : a ∉ separator) :
    a ∈ (parts.intersperse separator).flatten ↔ ∃ part ∈ parts, a ∈ part := by
  cases parts with
  | nil => simp
  | cons first rest => simp [flatten_intersperse_cons, ha]

/-- A function of the elements goes to the lists and to the separator. -/
theorem map_flatten_intersperse (f : α → β) (separator : List α) (parts : List (List α)) :
    (parts.intersperse separator).flatten.map f = ((parts.map (·.map f)).intersperse (separator.map f)).flatten := by
  cases parts with
  | nil => rfl
  | cons first rest => simp [flatten_intersperse_cons, List.map_flatMap, List.flatMap_map]

end

/-! ## Forms -/

/-- The writes of some values in full are those of each value. -/
theorem fullAll_eq_map (values : List Value) : fullAll values = values.map full := by
  induction values with
  | nil => rfl
  | cons value values ih => rw [fullAll, ih, List.map_cons]

/-- The writes of some values with their private parts withheld are those of each value. -/
theorem redactedAll_eq_map (values : List Value) : redactedAll values = values.map redacted := by
  induction values with
  | nil => rfl
  | cons value values ih => rw [redactedAll, ih, List.map_cons]

/-- The writes of a value in one of its two forms. -/
def form (inFull : Bool) (value : Value) : List String :=
  if inFull then full value else redacted value

/-- A list is written with the forms of its elements, a comma between them. -/
theorem form_list (inFull : Bool) (values : List Value) :
    form inFull (.list values) = listWrites (values.map (form inFull)) := by
  cases inFull with
  | true =>
    simp only [form, if_true, full, fullAll_eq_map]
    rfl
  | false =>
    simp only [form, Bool.false_eq_true, if_false, redacted, redactedAll_eq_map]
    rfl

end PrivateLog.Value
