import PrivateLog.Lock.Basic

/-!
# Exercises with the lock

A list of numbers behind the lock, and readers that stay inside until they are released. Writers change the list when
the lock is free; while it is not, they wait, and nothing is changed.
-/

namespace PrivateLog.Lock

/-- The lock, what it protects, and the number of readers kept inside. -/
structure Bench where
  state : Nat
  data : List Int
  readers : Nat
  deriving DecidableEq, Repr

/-- A command. -/
inductive Exercise where
  | read (count : Nat)
  | release (count : Nat)
  | push (n : Int)
  | pop
  | threads (count : Nat)
  | length
  | blockedWrite (n : Int)
  | fullRead
  deriving DecidableEq, Repr

/-- The answer to a command. -/
inductive Observation where
  | bench (data : List Int) (readers : Nat)
  | length (n : Nat)
  | blocked (before data : List Int)
  | thread (data : List Int)
  deriving DecidableEq, Repr

namespace Bench

/-- A free lock with nothing behind it. -/
def initial : Bench := ⟨free, [], 0⟩

/-- One more reader goes inside and stays there, if there is room. -/
def enter (bench : Bench) : Bench :=
  match tryRead bench.state with
  | .entered state => { bench with state := state, readers := bench.readers + 1 }
  | _ => bench

/-- The reader that came last leaves. -/
def leave (bench : Bench) : Bench :=
  if bench.readers = 0 then bench
  else { bench with state := leaveRead bench.state, readers := bench.readers - 1 }

/-- A writer changes the data, if the lock is free. -/
def write (bench : Bench) (change : List Int → List Int) : Bench :=
  match tryWrite bench.state with
  | .entered _ => { bench with state := leaveWrite, data := change bench.data }
  | _ => bench

/-- All readers leave. -/
def clear (bench : Bench) : Bench :=
  bench.readers.repeat leave bench

/-- The answer that shows the data and the number of readers. -/
def shown (bench : Bench) : Bench × Observation :=
  (bench, .bench bench.data bench.readers)

/-- The list with its last number greater by one. -/
def bump (data : List Int) : List Int :=
  match data.reverse with
  | [] => []
  | n :: rest => ((n + 1) :: rest).reverse

/-- The number of sections that each thread runs. -/
def sections : Nat := 100

/-- Carries out a command. -/
def run (bench : Bench) : Exercise → Bench × Observation
  | .read count => (count.repeat enter bench).shown
  | .release count => ((min count bench.readers).repeat leave bench).shown
  | .push n => (bench.write (· ++ [n])).shown
  | .pop => (bench.write List.dropLast).shown
  | .threads count => ((count * sections).repeat (write · bump) (bench.write (· ++ [0]))).shown
  | .length => (bench, .length bench.data.length)
  | .blockedWrite n =>
    let bench := bench.clear
    let waiting := bench.enter.write (· ++ [n])
    let done := waiting.leave.write (· ++ [n])
    (done, .blocked waiting.data done.data)
  | .fullRead =>
    let bench := bench.clear
    let full := (writing - 1).repeat enter bench
    (full.clear, .thread full.clear.enter.data)

end Bench

end PrivateLog.Lock
