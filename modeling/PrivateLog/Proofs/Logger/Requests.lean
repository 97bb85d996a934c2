import PrivateLog.Logger
import PrivateLog.Proofs.Steps
import Mathlib.Logic.Function.Basic

/-!
# Threads that share a logger

Any number of threads make requests to one logger that keeps texts: they submit records, drain the texts, ask for their number.
A mutex stands in front of the texts. A thread acquires it, does what it has to do in one step or two, and releases it, and all
these steps of all threads come in any order (`System.Step`). To drain takes two: first the texts are joined or printed, then
they are cleared.
-/

namespace PrivateLog.Sharing

/-- What a thread asks of the logger. -/
inductive Request where
  | finish (delivery : Delivery) (record : Record)
  | drain
  | drainToConsole
  | count
  | isEmpty
  deriving DecidableEq, Repr

/-- The text that a request submits, if it submits one: that of its record, part behind part. -/
def Request.text? : Request → Option String
  | .finish _ record => some (String.join record.parts)
  | _ => none

/-- Whether a request empties the logger. -/
def Request.isDrain : Request → Bool
  | .drain => true
  | .drainToConsole => true
  | _ => false

/-- What a request that empties the logger makes of the texts: one text, or lines on the console. -/
def Request.shown : Request → List String → String
  | .drainToConsole, lines => Logger.printed lines
  | _, lines => Logger.joined lines

/-- How far a thread is with its request. One that drains has, in between, made a copy of texts that are not yet cleared. -/
inductive Stage where
  | fresh
  | copied
  | done
  deriving DecidableEq, Repr

/-- Where a thread is: without the mutex, or with it. -/
inductive Thread where
  | outside (todo : List Request)
  | inside (request : Request) (stage : Stage) (todo : List Request)
  deriving DecidableEq, Repr

/-- What can be seen of a step. -/
inductive Event (T : Type) where
  | locked (t : T) (request : Request)
  | pushed (t : T) (text : String)
  | taken (t : T) (request : Request) (batch : List String) (shown : String)
  | cleared (t : T)
  | counted (t : T) (count : Nat)
  | tested (t : T) (empty : Bool)
  | unlocked (t : T)
  deriving DecidableEq, Repr

/-- The logger, the thread that holds the mutex, and the threads. -/
structure System (T : Type) where
  logger : Logger
  holder : Option T
  threads : T → Thread

namespace System

variable {T : Type}

/-- At first the logger is empty, and the mutex free. -/
def start (requests : T → List Request) : System T :=
  ⟨.memory [], none, fun t => .outside (requests t)⟩

variable [DecidableEq T]

/-- A thread goes on to another place. -/
def put (system : System T) (t : T) (thread : Thread) : System T :=
  { system with threads := Function.update system.threads t thread }

/-- One step of one thread. -/
inductive Step (system : System T) : Event T → System T → Prop where
  | locks {t : T} {request : Request} {todo : List Request} :
      system.threads t = .outside (request :: todo) → system.holder = none →
      Step system (.locked t request) { system.put t (.inside request .fresh todo) with holder := some t }
  | pushes {t : T} {delivery : Delivery} {record : Record} {todo : List Request} :
      system.threads t = .inside (.finish delivery record) .fresh todo →
      Step system (.pushed t record.text)
        { system.put t (.inside (.finish delivery record) .done todo) with
          logger := (system.logger.finish delivery record).1 }
  | takes {t : T} {request : Request} {todo : List Request} {lines : List String} :
      system.threads t = .inside request .fresh todo → request.isDrain = true → system.logger.lines? = some lines →
      Step system (.taken t request lines (request.shown lines)) (system.put t (.inside request .copied todo))
  | clears {t : T} {request : Request} {todo : List Request} :
      system.threads t = .inside request .copied todo →
      Step system (.cleared t) { system.put t (.inside request .done todo) with logger := system.logger.clear }
  | counts {t : T} {todo : List Request} {lines : List String} :
      system.threads t = .inside .count .fresh todo → system.logger.lines? = some lines →
      Step system (.counted t lines.length) (system.put t (.inside .count .done todo))
  | tests {t : T} {todo : List Request} {lines : List String} :
      system.threads t = .inside .isEmpty .fresh todo → system.logger.lines? = some lines →
      Step system (.tested t lines.isEmpty) (system.put t (.inside .isEmpty .done todo))
  | unlocks {t : T} {request : Request} {todo : List Request} :
      system.threads t = .inside request .done todo →
      Step system (.unlocked t) { system.put t (.outside todo) with holder := none }

/-- The steps of all threads, one after another. -/
abbrev Run (requests : T → List Request) (events : List (Event T)) (system : System T) : Prop :=
  Steps Step (start requests) events system

end System

/-! ## What the events tell -/

section

variable {T : Type}

/-- The texts that were pushed, each with the thread that pushed it. -/
def pushed (events : List (Event T)) : List (T × String) :=
  events.filterMap fun
    | .pushed t text => some (t, text)
    | _ => none

/-- The texts that were pushed. -/
def texts (events : List (Event T)) : List String :=
  (pushed events).map (·.2)

/-- The texts that were drained, those of one drain behind those of another. -/
def drained (events : List (Event T)) : List String :=
  events.flatMap fun
    | .taken _ _ batch _ => batch
    | _ => []

/-- The drains in the order in which they took the mutex. -/
def drainsLocked (events : List (Event T)) : List (T × Request) :=
  events.filterMap fun
    | .locked t request => if request.isDrain then some (t, request) else none
    | _ => none

/-- The drains in the order in which they took the texts. -/
def drainsTaken (events : List (Event T)) : List (T × Request) :=
  events.filterMap fun
    | .taken t request _ _ => some (t, request)
    | _ => none

/-- The texts that one thread pushed. -/
def pushedBy [DecidableEq T] (t : T) (events : List (Event T)) : List String :=
  ((pushed events).filter (·.1 = t)).map (·.2)

/-- The thread that takes the step. -/
def Event.thread : Event T → T
  | .locked t _ => t
  | .pushed t _ => t
  | .taken t _ _ _ => t
  | .cleared t => t
  | .counted t _ => t
  | .tested t _ => t
  | .unlocked t => t

variable (events events' : List (Event T))

/-- What is pushed later comes later. -/
theorem texts_append : texts (events ++ events') = texts events ++ texts events' := by
  simp [texts, pushed]

/-- What is drained later comes later. -/
theorem drained_append : drained (events ++ events') = drained events ++ drained events' :=
  List.flatMap_append

/-- A drain that takes the mutex later comes later. -/
theorem drainsLocked_append : drainsLocked (events ++ events') = drainsLocked events ++ drainsLocked events' :=
  List.filterMap_append

/-- A drain that takes the texts later comes later. -/
theorem drainsTaken_append : drainsTaken (events ++ events') = drainsTaken events ++ drainsTaken events' :=
  List.filterMap_append

/-- What a thread pushes later comes later. -/
theorem pushedBy_append [DecidableEq T] (t : T) :
    pushedBy t (events ++ events') = pushedBy t events ++ pushedBy t events' := by
  simp [pushedBy, pushed]

/-- A thread pushes nothing in the steps of the others. -/
theorem pushedBy_of_ne [DecidableEq T] {t : T} {event : Event T} (h : event.thread ≠ t) : pushedBy t [event] = [] := by
  cases event with
  | pushed other text => simpa [pushedBy, pushed, Event.thread] using h
  | locked | taken | cleared | counted | tested | unlocked => rfl

end

end PrivateLog.Sharing
