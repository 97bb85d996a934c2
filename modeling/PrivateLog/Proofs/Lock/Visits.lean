import PrivateLog.Proofs.Lock.Exclusion
import Mathlib.Logic.Function.Basic

/-!
# Threads that visit the data

Behind the lock lie data. A thread makes visits one after another: it enters as a reader or as a writer, does what its
program says step by step, and leaves. A program may go on as it likes with what it has seen, and only that of a writer
puts other data in the place. The steps of all threads come in any order (`Run`), and the row of events they leave is all
that is known of the order: which visits began and which came to an end can be read from it (`acquired`, `completed`,
`begun`).
-/

namespace PrivateLog.Lock

/-- What is done inside, step by step. -/
inductive Program (α : Type) : Mode → Type where
  | done {mode : Mode} : Program α mode
  | load {mode : Mode} (next : α → Program α mode) : Program α mode
  | store (value : α) (next : Program α .exclusive) : Program α .exclusive

/-- The data that a program leaves when nobody else touches them. -/
def Program.run {α : Type} {mode : Mode} : Program α mode → α → α
  | .done, data => data
  | .load next, data => (next data).run data
  | .store value next, _ => next.run value

/-- A stay inside: in which mode, and what is done. -/
structure Visit (α : Type) where
  mode : Mode
  program : Program α mode

/-- The visit of a reader who looks at the data once. -/
def Visit.look {α : Type} : Visit α :=
  ⟨.shared, .load fun _ => .done⟩

/-- The visit of a writer who changes the data. -/
def Visit.modify {α : Type} (change : α → α) : Visit α :=
  ⟨.exclusive, .load fun value => .store (change value) .done⟩

/-- Where a thread is: outside or inside, with the visits still to come. One whose attempt overflowed makes no more. -/
inductive Thread (α : Type) where
  | outside (todo : List (Visit α))
  | inside (visit : Visit α) (rest : Program α visit.mode) (todo : List (Visit α))
  | failed (todo : List (Visit α))

/-- The visits that a thread has not begun. -/
def Thread.todo {α : Type} : Thread α → List (Visit α)
  | .outside todo => todo
  | .inside _ _ todo => todo
  | .failed todo => todo

/-- The visit that a thread is making. -/
def Thread.visit? {α : Type} : Thread α → Option (Visit α)
  | .inside visit _ _ => some visit
  | _ => none

/-- What can be seen of a step. -/
inductive Event (T α : Type) where
  | entered (t : T) (visit : Visit α)
  | waited (t : T)
  | failed (t : T)
  | loaded (t : T) (value : α)
  | stored (t : T) (value : α)
  | left (t : T)

/-- The thread that takes the step. -/
def Event.thread {T α : Type} : Event T α → T
  | .entered t _ => t
  | .waited t => t
  | .failed t => t
  | .loaded t _ => t
  | .stored t _ => t
  | .left t => t

/-- Whether the thread gets on with the step. -/
def Event.advances {T α : Type} : Event T α → Bool
  | .waited _ => false
  | .failed _ => false
  | _ => true

/-- A lock, the data behind it, and the threads. -/
structure System (T α : Type) where
  scene : Scene T
  data : α
  threads : T → Thread α

section

variable {T α : Type} [DecidableEq T]

namespace System

/-- At first nobody is inside. -/
def start (data : α) (visits : T → List (Visit α)) : System T α :=
  ⟨Scene.initial, data, fun t => .outside (visits t)⟩

/-- A thread goes on to another place. -/
def put (system : System T α) (t : T) (thread : Thread α) : System T α :=
  { system with threads := Function.update system.threads t thread }

/-- One step of one thread. An overflow ends a thread whose arithmetic is checked, and is else an attempt in vain. -/
inductive Step (system : System T α) : Event T α → System T α → Prop where
  | enters {t : T} {visit : Visit α} {todo : List (Visit α)} {state : Nat} :
      system.threads t = .outside (visit :: todo) → attempt visit.mode system.scene.state = .entered state →
      Step system (.entered t visit)
        { system.put t (.inside visit visit.program todo) with scene := system.scene.enter ⟨t, visit.mode⟩ state }
  | waits {t : T} {visit : Visit α} {todo : List (Visit α)} :
      system.threads t = .outside (visit :: todo) →
      attempt visit.mode system.scene.state = .refused ∨ attempt visit.mode system.scene.state = .overflow ∨
        visit.mode = .exclusive → Step system (.waited t) system
  | fails {t : T} {visit : Visit α} {todo : List (Visit α)} :
      system.threads t = .outside (visit :: todo) → attempt visit.mode system.scene.state = .overflow →
      Step system (.failed t) (system.put t (.failed (visit :: todo)))
  | loads {t : T} {visit : Visit α} {next : α → Program α visit.mode} {todo : List (Visit α)} :
      system.threads t = .inside visit (.load next) todo →
      Step system (.loaded t system.data) (system.put t (.inside visit (next system.data) todo))
  | stores {t : T} {program next : Program α .exclusive} {value : α} {todo : List (Visit α)} :
      system.threads t = .inside ⟨.exclusive, program⟩ (.store value next) todo →
      Step system (.stored t value) { system.put t (.inside ⟨.exclusive, program⟩ next todo) with data := value }
  | leaves {t : T} {visit : Visit α} {todo : List (Visit α)} :
      system.threads t = .inside visit .done todo →
      Step system (.left t) { system.put t (.outside todo) with scene := system.scene.drop ⟨t, visit.mode⟩ }

/-- The steps of all threads, one after another, with what can be seen of them. -/
inductive Run (start : System T α) : List (Event T α) → System T α → Prop where
  | nil : Run start [] start
  | snoc {events : List (Event T α)} {event : Event T α} {system system' : System T α} :
      Run start events system → Step system event system' → Run start (events ++ [event]) system'

/-- Every event of a run is that of a step. -/
theorem Run.exists_step {start system : System T α} {all : List (Event T α)} (h : Run start all system)
    {events tail : List (Event T α)} {event : Event T α} (hall : all = events ++ event :: tail) :
    ∃ before after, Run start events before ∧ Step before event after := by
  induction h generalizing tail with
  | nil => simp at hall
  | @snoc all last before after hrun hstep ih =>
    rcases List.eq_nil_or_concat tail with rfl | ⟨front, other, rfl⟩
    · obtain ⟨rfl, hevent⟩ := List.append_inj' hall rfl
      obtain rfl := List.singleton_inj.1 hevent
      exact ⟨before, after, hrun, hstep⟩
    · rw [List.concat_eq_append, ← List.cons_append, ← List.append_assoc] at hall
      exact ih (List.append_inj' hall rfl).1

end System

end

end PrivateLog.Lock
