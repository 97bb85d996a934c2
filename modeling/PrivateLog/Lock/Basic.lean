/-!
# A lock for many readers or one writer

The state of the lock is a single byte: the number of readers inside, or the greatest byte while a writer is inside.
Each attempt to enter is one atomic step. A reader computes the next number of readers before it looks whether there is
room, so that the sum may leave the byte.
-/

namespace PrivateLog.Lock

/-- Nobody is inside. -/
def free : Nat := 0

/-- A writer is inside. -/
def writing : Nat := 255

/-- What comes of an attempt to enter: the new state, another try, or a number that does not fit the byte. -/
inductive Attempt where
  | entered (state : Nat)
  | refused
  | overflow
  deriving DecidableEq, Repr

/-- The next number in a byte. -/
def next? (state : Nat) : Option Nat :=
  if state + 1 < 256 then some (state + 1) else none

/-- One attempt of a reader. -/
def tryRead (state : Nat) : Attempt :=
  match next? state with
  | none => .overflow
  | some readers => if state < writing - 1 then .entered readers else .refused

/-- One attempt of a writer. -/
def tryWrite (state : Nat) : Attempt :=
  if state = free then .entered writing else .refused

/-- A reader leaves. Below zero a byte begins again at its greatest number. -/
def leaveRead (state : Nat) : Nat :=
  (state + 255) % 256

/-- The writer leaves. -/
def leaveWrite : Nat := free

/-- A reader is counted while there is room for one more, is refused by a full house, and fails on a greater number. -/
theorem tryRead_eq (state : Nat) : tryRead state =
    if state < 254 then .entered (state + 1) else if state = 254 then .refused else .overflow := by
  have hroom : (state < writing - 1) = (state < 254) := rfl
  simp only [tryRead, next?, hroom]
  by_cases hlt : state < 254
  · have : state + 1 < 256 := by omega
    simp [hlt, this]
  · by_cases heq : state = 254
    · simp [heq]
    · have : ¬state + 1 < 256 := by omega
      simp [hlt, heq, this]

/-- A reader enters as long as there is room for one more, and is then counted. -/
theorem tryRead_eq_entered_iff {state next : Nat} :
    tryRead state = .entered next ↔ state < 254 ∧ next = state + 1 := by
  rw [tryRead_eq]
  grind

/-- A reader is refused by the greatest number of readers. -/
theorem tryRead_eq_refused_iff {state : Nat} : tryRead state = .refused ↔ state = 254 := by
  rw [tryRead_eq]
  grind

/-- The number that a reader computes does not fit the byte exactly if a writer is inside. -/
theorem tryRead_eq_overflow_iff {state : Nat} : tryRead state = .overflow ↔ writing ≤ state := by
  rw [tryRead_eq, writing]
  grind

/-- As long as no writer is inside, a reader enters or is refused. -/
theorem tryRead_ne_overflow {state : Nat} (h : state < writing) : tryRead state ≠ .overflow := by
  rw [Ne, tryRead_eq_overflow_iff]
  omega

/-- A writer enters exactly if nobody is inside. -/
theorem tryWrite_eq_entered_iff {state : Nat} : tryWrite state = .entered writing ↔ state = free := by
  unfold tryWrite
  split <;> simp_all

/-- A writer that enters leaves no other mark. -/
theorem eq_writing_of_tryWrite {state next : Nat} (h : tryWrite state = .entered next) : next = writing := by
  unfold tryWrite at h
  split at h <;> cases h
  rfl

/-- The reader that leaves is no longer counted. -/
theorem leaveRead_succ {readers : Nat} (h : readers < writing) : leaveRead (readers + 1) = readers := by
  unfold leaveRead
  unfold writing at h
  omega

end PrivateLog.Lock
