/-!
# Bytes

Places in a text are counted in the bytes of its encoding, a character taking one to four of them. `byteLength_append`
says that a place behind two texts lies as far as both reach.
-/

namespace PrivateLog.Text

/-- The number of bytes of a text. -/
def byteLength : List Char → Nat
  | [] => 0
  | c :: text => c.utf8Size + byteLength text

/-- Two texts behind one another have the bytes of both. -/
theorem byteLength_append (a b : List Char) : byteLength (a ++ b) = byteLength a + byteLength b := by
  induction a with
  | nil => simp [byteLength]
  | cons c a ih => simp [byteLength, ih, Nat.add_assoc]

/-- Only the empty text has no bytes. -/
theorem byteLength_eq_zero_iff {text : List Char} : byteLength text = 0 ↔ text = [] := by
  cases text with
  | nil => simp [byteLength]
  | cons c text =>
    have := c.utf8Size_pos
    simp only [byteLength, reduceCtorEq, iff_false]
    omega

end PrivateLog.Text
