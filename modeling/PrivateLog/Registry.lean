import PrivateLog.Logger
import PrivateLog.Settings

/-!
# Registry

All loggers of a program, the list of those that take every record without an address, and the settings. A logger is
known by its handle, its place in the registry; the same handle may stand in the list several times, and then takes each
record as often. A call reaches a logger directly or through references and shared pointers, which pass each method on.
-/

namespace PrivateLog

/-- A logger as a call reaches it: its handle, behind any number of references and shared pointers. -/
inductive Access where
  | direct (handle : Nat)
  | borrowed (access : Access)
  | shared (access : Access)
  deriving DecidableEq, Repr

/-- The loggers, the list of the global ones, the settings, and what the console has shown. -/
structure Registry where
  loggers : List Logger
  globals : List Nat
  settings : Settings
  printed : String
  deriving Repr

namespace Registry

/-- At first the console is the only logger, and global. -/
def initial : Registry where
  loggers := [.console]
  globals := [0]
  settings := {}
  printed := ""

/-- The logger of a handle. -/
def logger? (registry : Registry) (handle : Nat) : Option Logger :=
  registry.loggers[handle]?

/-- Shows a text on the console. -/
def print (registry : Registry) (text : String) : Registry :=
  { registry with printed := registry.printed ++ text }

/-- Puts a logger in the place of another. -/
def replace (registry : Registry) (handle : Nat) (logger : Logger) : Registry :=
  { registry with loggers := registry.loggers.set handle logger }

/-- Adds a logger; its handle is the number of loggers before. -/
def create (registry : Registry) (logger : Logger) : Registry × Nat :=
  ({ registry with loggers := registry.loggers ++ [logger] }, registry.loggers.length)

/-- Adds a logger to the end of the global list. -/
def addGlobal (registry : Registry) (handle : Nat) : Registry :=
  { registry with globals := registry.globals ++ [handle] }

/-- Replaces the global list. -/
def setGlobals (registry : Registry) (handles : List Nat) : Registry :=
  { registry with globals := handles }

/-- Hands a record to the logger of a handle. -/
def finish (registry : Registry) (delivery : Delivery) (record : Record) (handle : Nat) : Registry :=
  match registry.logger? handle with
  | some logger =>
    let (logger, text) := logger.finish delivery record
    (registry.replace handle logger).print text
  | none => registry

/-- Tells the logger of a handle that the program may end. -/
def farewell (registry : Registry) (handle : Nat) : Registry :=
  match registry.logger? handle with
  | some logger => registry.replace handle logger.prepareToDie
  | none => registry

/-- Hands a record to a logger through all that lies in front of it. -/
def finishThrough (registry : Registry) (delivery : Delivery) (record : Record) : Access → Registry
  | .direct handle => registry.finish delivery record handle
  | .borrowed access => finishThrough registry delivery record access
  | .shared access => finishThrough registry delivery record access

/-- Tells a logger through all that lies in front of it that the program may end. -/
def farewellThrough (registry : Registry) : Access → Registry
  | .direct handle => registry.farewell handle
  | .borrowed access => farewellThrough registry access
  | .shared access => farewellThrough registry access

/-- Hands a record to the global loggers, in the order of the list as it is when the record is posted. -/
def post (registry : Registry) (delivery : Delivery) (record : Record) : Registry :=
  let hand (registry : Registry) (handle : Nat) := registry.finishThrough delivery record (.shared (.direct handle))
  registry.globals.foldl hand registry

/-- Tells the global loggers that the program may end. -/
def prepareToDie (registry : Registry) : Registry :=
  let tell (registry : Registry) (handle : Nat) := registry.farewellThrough (.shared (.direct handle))
  registry.globals.foldl tell registry

/-- The logger behind references and shared pointers is the one that takes the record. -/
theorem finishThrough_borrowed (registry : Registry) (delivery : Delivery) (record : Record) (access : Access) :
    registry.finishThrough delivery record (.borrowed access) = registry.finishThrough delivery record access := rfl

/-- Handing a record over leaves the global list as it is. -/
theorem globals_finish (registry : Registry) (delivery : Delivery) (record : Record) (handle : Nat) :
    (registry.finish delivery record handle).globals = registry.globals := by
  unfold finish
  split <;> rfl

end Registry

end PrivateLog
