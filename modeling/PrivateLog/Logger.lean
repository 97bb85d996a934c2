import PrivateLog.Record

/-!
# Loggers

A logger takes finished records, at once or awaited. One kind keeps their texts in memory, one prints them to the
console, and one counts how it is called and keeps the texts. Each method yields the logger behind it and what it
prints.
-/

namespace PrivateLog

/-- Whether the caller hands a record over at once or awaits the logger. -/
inductive Delivery where
  | immediate
  | awaited
  deriving DecidableEq, Repr

/-- How often the methods of a logger were called. -/
structure CallCounts where
  immediate : Nat := 0
  awaited : Nat := 0
  farewells : Nat := 0
  deriving DecidableEq, Repr

/-- A destination of records. -/
inductive Logger where
  | memory (lines : List String)
  | console
  | counting (lines : List String) (counts : CallCounts)
  deriving DecidableEq, Repr

namespace Logger

/-- The line that the console shows for a text. -/
def consoleLine (text : String) : String :=
  text ++ "\n"

/-- Takes a record. -/
def finish (delivery : Delivery) (record : Record) : Logger → Logger × String
  | .memory lines => (.memory (lines ++ [record.text]), "")
  | .console => (.console, consoleLine (String.join record.parts))
  | .counting lines counts =>
    let counts := match delivery with
      | .immediate => { counts with immediate := counts.immediate + 1 }
      | .awaited => { counts with awaited := counts.awaited + 1 }
    (.counting (lines ++ [record.text]) counts, "")

/-- Prepares for the end of the program. -/
def prepareToDie : Logger → Logger
  | .counting lines counts => .counting lines { counts with farewells := counts.farewells + 1 }
  | logger => logger

/-- The texts kept in memory, if the logger keeps any. -/
def lines? : Logger → Option (List String)
  | .memory lines => some lines
  | .console => none
  | .counting lines _ => some lines

/-- The logger without the texts it kept. -/
def clear : Logger → Logger
  | .memory _ => .memory []
  | .console => .console
  | .counting _ counts => .counting [] counts

/-- The kept texts as one, with a line break between them. -/
def joined (lines : List String) : String :=
  String.intercalate "\n" lines

/-- What the console shows for the kept texts. -/
def printed (lines : List String) : String :=
  String.join (lines.map consoleLine)

/-- A logger that keeps texts has one more after a record. -/
theorem lines?_finish {logger : Logger} {lines : List String} (delivery : Delivery) (record : Record)
    (h : logger.lines? = some lines) : (logger.finish delivery record).1.lines? = some (lines ++ [record.text]) := by
  cases logger <;> cases h <;> rfl

/-- A logger that keeps texts has none after they are cleared. -/
theorem lines?_clear {logger : Logger} {lines : List String} (h : logger.lines? = some lines) :
    logger.clear.lines? = some [] := by
  cases logger <;> cases h <;> rfl

end Logger

end PrivateLog
