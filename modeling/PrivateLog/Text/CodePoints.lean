/-!
# Sets of characters

A large set of characters is written as the increasing list of the code points at which membership changes: the first
boundary begins a run of members, the second ends it, and so on. `contains_cons_of_lt` says that no member lies below the
first boundary.
-/

namespace PrivateLog.Text

/-- A set of characters, given by the code points at which membership changes, in increasing order. -/
structure CodePoints where
  boundaries : List Nat

namespace CodePoints

/-- Membership of `code` when the boundaries still to come are `boundaries` and the code points before them are members
exactly if `inside`. -/
def crossing (inside : Bool) : List Nat → Nat → Bool
  | [], _ => inside
  | boundary :: boundaries, code => if code < boundary then inside else crossing (!inside) boundaries code

/-- Whether a character belongs to the set. -/
def contains (set : CodePoints) (c : Char) : Bool :=
  crossing false set.boundaries c.toNat

/-- The set without boundaries is empty. -/
theorem contains_nil (c : Char) : contains ⟨[]⟩ c = false := rfl

/-- A code point below the first boundary is no member. -/
theorem contains_cons_of_lt {boundary : Nat} {c : Char} (boundaries : List Nat) (h : c.toNat < boundary) :
    contains ⟨boundary :: boundaries⟩ c = false := by
  simp [contains, crossing, h]

end CodePoints

end PrivateLog.Text
