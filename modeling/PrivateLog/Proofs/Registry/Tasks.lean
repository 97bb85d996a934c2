import PrivateLog.Proofs.Lock.Serialization
import PrivateLog.Proofs.Lock.Overflow
import PrivateLog.Proofs.Registry.Texts
import PrivateLog.Proofs.Steps

/-!
# Tasks at the global list

Any number of tasks, each of which adds a global logger, replaces the global list or posts a record. To change the list is the
visit of a writer behind its lock. To post is the visit of a reader, who copies the list and leaves; then the record is handed
to one logger of the copy after another, and no guard is held. Between any two of these steps any steps of other tasks may
come: those of other threads, those of tasks that run while an awaited logger is not ready, and those of tasks that the logger
just called begins itself, which come right behind the step in which it was called.
-/

namespace PrivateLog.Posting

open Lock (Visit)

/-- What is asked of the registry. -/
inductive Task where
  | add (handle : Nat)
  | replace (handles : List Nat)
  | post (delivery : Delivery) (record : Record)
  deriving DecidableEq, Repr

namespace Task

/-- What the task does behind the lock of the global list. -/
def visit : Task → Visit (List Nat)
  | .add handle => .modify (· ++ [handle])
  | .replace handles => .modify fun _ => handles
  | .post _ _ => .look

/-- Whether the task posts a record. -/
def isPost : Task → Bool
  | .post _ _ => true
  | _ => false

/-- The text that each logger keeps which the task hands a record to. -/
def text? : Task → Option String
  | .post _ record => some record.text
  | _ => none

/-- The registry after the task, when nothing comes in between. -/
def run : Task → Registry → Registry
  | .add handle, registry => registry.addGlobal handle
  | .replace handles, registry => registry.setGlobals handles
  | .post delivery record, registry => registry.post delivery record

/-- What the visit makes of the global list is what the task makes of it. -/
theorem run_visit (task : Task) (registry : Registry) :
    task.visit.program.run registry.globals = (task.run registry).globals := by
  cases task with
  | add handle => exact Lock.System.run_addGlobal registry handle
  | replace handles => exact Lock.System.run_setGlobals registry handles
  | post delivery record =>
    rw [run, Registry.post_eq, Registry.globals_handOver]
    rfl

/-- Those who post are the readers. -/
theorem mode_visit (task : Task) : task.visit.mode = .exclusive ↔ task.isPost = false := by
  cases task <;> simp [visit, isPost, Visit.modify, Visit.look]

end Task

/-- What can be seen of a step: one at the list, or that a logger was handed the record of a post. -/
inductive Event (T : Type) where
  | visited (event : Lock.Event T (List Nat))
  | submitted (t : T) (handle : Nat)

namespace Event

variable {T : Type}

/-- The task that takes the step. -/
def task : Event T → T
  | .visited event => event.thread
  | .submitted t _ => t

/-- Whether the task gets on with the step. -/
def advances : Event T → Bool
  | .visited event => event.advances
  | .submitted _ _ => true

end Event

/-- The list behind its lock with the tasks at it, the registry, and the handles that each post has copied and not yet
handed its record to. -/
structure System (T : Type) where
  list : Lock.System T (List Nat)
  registry : Registry
  rest : T → List Nat

section

variable {T : Type}

/-! ## What the events tell -/

/-- What happened at the list. -/
def visits (events : List (Event T)) : List (Lock.Event T (List Nat)) :=
  events.filterMap fun
    | .visited event => some event
    | .submitted _ _ => none

/-- The loggers that were handed a record, each with the task. -/
def submissions (events : List (Event T)) : List (T × Nat) :=
  events.filterMap fun
    | .submitted t handle => some (t, handle)
    | .visited _ => none

/-- The task that takes the lock to change the list. -/
def change? : Lock.Event T (List Nat) → Option T
  | .entered t visit => if visit.mode = .exclusive then some t else none
  | _ => none

/-- The tasks that change the list, in the order in which they took the lock. -/
def changes (events : List (Event T)) : List T :=
  (visits events).filterMap change?

/-- The registry after some tasks, one after another. -/
def after (tasks : List Task) (registry : Registry) : Registry :=
  tasks.foldl (fun registry task => task.run registry) registry

/-- The texts that a logger was handed by some tasks. -/
def handed (tasks : T → Task) (handle : Nat) (events : List (Event T)) : List String :=
  (submissions events).filterMap fun submission =>
    if submission.2 = handle then (tasks submission.1).text? else none

variable (events : List (Event T)) (event : Lock.Event T (List Nat)) (t other : T) (handle handle' : Nat)
  (tasks : T → Task)

/-- A step at the list is one more there. -/
theorem visits_visited : visits (events ++ [.visited event]) = visits events ++ [event] := by
  simp [visits]

/-- To hand a record over is nothing that happens at the list. -/
theorem visits_submitted : visits (events ++ [.submitted t handle]) = visits events := by
  simp [visits]

/-- A step at the list hands nothing over. -/
theorem submissions_visited : submissions (events ++ [.visited event]) = submissions events := by
  simp [submissions]

/-- A logger that is handed a record is one more. -/
theorem submissions_submitted : submissions (events ++ [.submitted t handle]) = submissions events ++ [(t, handle)] := by
  simp [submissions]

/-- A step at the list hands no texts over. -/
theorem handed_visited : handed tasks handle (events ++ [.visited event]) = handed tasks handle events := by
  rw [handed, submissions_visited, handed]

/-- The text of a record comes behind those that the logger was handed before. -/
theorem handed_submitted : handed tasks handle' (events ++ [.submitted t handle]) =
    handed tasks handle' events ++ if handle = handle' then (tasks t).text?.toList else [] := by
  rw [handed, submissions_submitted, List.filterMap_append, handed]
  by_cases ho : handle = handle'
  · cases htext : (tasks t).text? <;> simp [ho, htext]
  · simp [ho]

variable [DecidableEq T]

/-- The loggers that one task handed its record to. -/
def submittedBy (t : T) (events : List (Event T)) : List Nat :=
  ((submissions events).filter (·.1 = t)).map (·.2)

/-- What one task sees of the list. -/
def copy? (t : T) : Lock.Event T (List Nat) → Option (List Nat)
  | .loaded other value => if other = t then some value else none
  | _ => none

/-- All that one task saw of the list. -/
def copies (t : T) (events : List (Event T)) : List (List Nat) :=
  (visits events).filterMap (copy? t)

/-- What a task sees in a step at the list, it sees last. -/
theorem copies_visited : copies t (events ++ [.visited event]) = copies t events ++ (copy? t event).toList := by
  rw [copies, visits_visited, List.filterMap_append]
  cases h : copy? t event <;> simp [copies, h]

/-- When a record is handed over, nobody sees the list. -/
theorem copies_submitted : copies other (events ++ [.submitted t handle]) = copies other events := by
  rw [copies, visits_submitted, copies]

/-- What a task saw, it saw in a step at the list. -/
theorem mem_copies_iff {t : T} {value : List Nat} {events : List (Event T)} :
    value ∈ copies t events ↔ .visited (.loaded t value) ∈ events := by
  simp only [copies, visits, List.mem_filterMap]
  constructor
  · rintro ⟨event, ⟨step, hmem, hstep⟩, hevent⟩
    cases step with
    | submitted => cases hstep
    | visited event' =>
      obtain rfl := Option.some_inj.1 hstep
      cases event' with
      | loaded other value' =>
        by_cases ho : other = t
        · simp only [copy?, ho, if_true, Option.some.injEq] at hevent
          rw [← hevent, ← ho]
          exact hmem
        · simp [copy?, ho] at hevent
      | entered | waited | failed | stored | left => cases hevent
  · intro hmem
    exact ⟨_, ⟨_, hmem, rfl⟩, by simp [copy?]⟩

/-- In a step at the list no task hands its record over. -/
theorem submittedBy_visited : submittedBy t (events ++ [.visited event]) = submittedBy t events := by
  rw [submittedBy, submissions_visited, submittedBy]

/-- The loggers that a task handed its record to are those that were handed it. -/
theorem mem_submittedBy_iff {t : T} {handle : Nat} {events : List (Event T)} :
    handle ∈ submittedBy t events ↔ .submitted t handle ∈ events := by
  simp only [submittedBy, submissions, List.mem_map, List.mem_filter, List.mem_filterMap, decide_eq_true_eq]
  constructor
  · rintro ⟨submission, ⟨⟨step, hmem, hstep⟩, rfl⟩, rfl⟩
    cases step with
    | visited => cases hstep
    | submitted other handle =>
      obtain rfl := Option.some_inj.1 hstep
      exact hmem
  · intro hmem
    exact ⟨(t, handle), ⟨⟨_, hmem, rfl⟩, rfl⟩, rfl⟩

/-- A task that hands its record to a logger has done so last. -/
theorem submittedBy_submitted :
    submittedBy other (events ++ [.submitted t handle]) = submittedBy other events ++ if t = other then [handle] else [] := by
  rw [submittedBy, submissions_submitted]
  by_cases ho : t = other <;> simp [submittedBy, ho]

end

namespace System

variable {T : Type}

/-- At first no task has begun. -/
def start (registry : Registry) (tasks : T → Task) : System T :=
  ⟨.start registry.globals fun t => [(tasks t).visit], registry, fun _ => []⟩

variable [DecidableEq T]

/-- The handles that the posts have still before them: one that loads the list has all of it. -/
def copied (tasks : T → Task) (rest : T → List Nat) : Lock.Event T (List Nat) → T → List Nat
  | .loaded t value => if (tasks t).isPost then Function.update rest t value else rest
  | _ => rest

/-- A post that sees the list has all of it before it. -/
theorem copied_of_some {tasks : T → Task} {rest : T → List Nat} {event : Lock.Event T (List Nat)} {t : T}
    {value : List Nat} (hpost : (tasks t).isPost = true) (h : copy? t event = some value) :
    copied tasks rest event t = value := by
  cases event with
  | loaded other value' =>
    by_cases ho : other = t
    · subst ho
      simp only [copy?, if_true, Option.some.injEq] at h
      simp [copied, hpost, h]
    · simp [copy?, ho] at h
  | entered | waited | failed | stored | left => cases h

/-- A task that does not see the list has before it what it had. -/
theorem copied_of_none {tasks : T → Task} {rest : T → List Nat} {event : Lock.Event T (List Nat)} {t : T}
    (h : copy? t event = none) : copied tasks rest event t = rest t := by
  cases event with
  | loaded other value =>
    have ho : t ≠ other := by
      rintro rfl
      simp [copy?] at h
    rw [copied]
    split
    · exact Function.update_of_ne ho ..
    · rfl
  | entered | waited | failed | stored | left => rfl

/-- A task that does not post has nothing before it but what it had. -/
theorem copied_of_not_isPost {tasks : T → Task} {rest : T → List Nat} {event : Lock.Event T (List Nat)} {t : T}
    (h : (tasks t).isPost = false) : copied tasks rest event t = rest t := by
  cases hcopy : copy? t event with
  | none => exact copied_of_none hcopy
  | some value =>
    cases event with
    | loaded other value' =>
      by_cases ho : other = t
      · simp [copied, ho, h]
      · simp [copy?, ho] at hcopy
    | entered | waited | failed | stored | left => rfl

/-- One step of one task. -/
inductive Step (tasks : T → Task) (system : System T) : Event T → System T → Prop where
  | visits {event : Lock.Event T (List Nat)} {list : Lock.System T (List Nat)} :
      system.list.Step event list →
      Step tasks system (.visited event)
        ⟨list, system.registry.setGlobals list.data, copied tasks system.rest event⟩
  | submits {t : T} {delivery : Delivery} {record : Record} {handle : Nat} {handles : List Nat} :
      tasks t = .post delivery record → system.list.threads t = .outside [] → system.rest t = handle :: handles →
      Step tasks system (.submitted t handle)
        ⟨system.list, system.registry.finishThrough delivery record (.shared (.direct handle)),
          Function.update system.rest t handles⟩

/-- The steps of all tasks, one after another. -/
abbrev Run (registry : Registry) (tasks : T → Task) (events : List (Event T)) (system : System T) : Prop :=
  Steps (Step tasks) (start registry tasks) events system

end System

end PrivateLog.Posting
