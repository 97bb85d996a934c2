import Mathlib.Data.List.Forall2

/-!
# Outcomes

A reader yields a result or an error. `bind_eq_ok_iff` and `map_eq_ok_iff` take a result of several steps apart into the
results of the steps, and `mapM_eq_ok_iff` does so for a step that is taken for each element of a list.
-/

namespace PrivateLog.Outcome

variable {ε α β : Type}

@[simp]
theorem ok_bind (a : α) (f : α → Except ε β) : Except.ok a >>= f = f a := rfl

@[simp]
theorem error_bind (e : ε) (f : α → Except ε β) : Except.error e >>= f = .error e := rfl

@[simp]
theorem pure_eq_ok (a : α) : (pure a : Except ε α) = .ok a := rfl

/-- Two steps have a result exactly if the first has one and the second has that result from it. -/
theorem bind_eq_ok_iff {x : Except ε α} {f : α → Except ε β} {b : β} :
    x >>= f = .ok b ↔ ∃ a, x = .ok a ∧ f a = .ok b := by
  cases x with
  | error e => simp
  | ok a => simp

/-- A result that is changed afterwards comes from a result. -/
theorem map_eq_ok_iff {x : Except ε α} {f : α → β} {b : β} : f <$> x = .ok b ↔ ∃ a, x = .ok a ∧ f a = b := by
  cases x with
  | error e => simp
  | ok a => simp

/-- An error stays when a result would be changed afterwards. -/
theorem map_eq_error_iff {x : Except ε α} {f : α → β} {e : ε} : f <$> x = .error e ↔ x = .error e := by
  cases x with
  | error e' => simp
  | ok a => simp

/-- A step that is taken for each element of a list has the results of these steps, one by one. -/
theorem mapM_eq_ok_iff {f : α → Except ε β} {as : List α} {bs : List β} :
    as.mapM f = .ok bs ↔ List.Forall₂ (fun a b => f a = .ok b) as bs := by
  induction as generalizing bs with
  | nil => simp [eq_comm]
  | cons a as ih =>
    rw [List.mapM_cons, bind_eq_ok_iff]
    constructor
    · rintro ⟨b, hb, h⟩
      obtain ⟨rest, hrest, h⟩ := bind_eq_ok_iff.1 h
      rw [pure_eq_ok, Except.ok.injEq] at h
      subst h
      exact .cons hb (ih.1 hrest)
    · intro h
      cases h with
      | cons hb hrest => exact ⟨_, hb, bind_eq_ok_iff.2 ⟨_, ih.2 hrest, rfl⟩⟩

/-- A step that is taken for each element of a list has results exactly if each step has one. -/
theorem toOption_mapM (f : α → Except ε β) (as : List α) :
    (as.mapM f).toOption = as.mapM fun a => (f a).toOption := by
  induction as with
  | nil => rfl
  | cons a as ih =>
    rw [List.mapM_cons, List.mapM_cons, ← ih]
    cases f a with
    | error => rfl
    | ok b => cases as.mapM f <;> rfl

end PrivateLog.Outcome
