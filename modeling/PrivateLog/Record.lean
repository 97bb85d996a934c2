import PrivateLog.Format.Render
import PrivateLog.Severity

/-!
# Records

A record gathers the parts of one message; they are joined only when the record is shown. Its beginning names the
severity, the place of the call and the time that has passed; the rendered message follows. A format that cannot be
rendered is noted in the record, which is never lost for it.
-/

namespace PrivateLog

/-- A message with its severity, in parts. -/
structure Record where
  parts : List String
  severity : Severity
  deriving DecidableEq, Repr

/-- The place of a call in source text. -/
structure CallSite where
  file : String
  line : Nat
  column : Nat
  deriving DecidableEq, Repr

namespace Record

variable {α : Type} [Loggable α]

/-- The record without parts. -/
def empty (severity : Severity) : Record := ⟨[], severity⟩

/-- The record with one more part at its end. -/
def add (record : Record) (part : String) : Record :=
  { record with parts := record.parts ++ [part] }

/-- The text of a record. -/
def text (record : Record) : String :=
  String.join record.parts

/-- The record with a time behind it. -/
def stamp (record : Record) (elapsed : String) : Record :=
  record.add ("[" ++ elapsed ++ "] ")

/-- The record with the rendering of a format behind it, if the format can be rendered. -/
def render (record : Record) (format : String) (arguments : List α) (reveal : Bool) :
    Except Format.Error Record :=
  (fun writes => { record with parts := record.parts ++ writes }) <$> Format.render format arguments reveal

/-- The note of a format that cannot be rendered. -/
def malformedNote (format : String) (error : Format.Error) : String :=
  "<malformed log format " ++ String.ofList (Text.quote '"' format.toList) ++ ": " ++ error.message ++ ">"

/-- The beginning of a record. -/
def start (severity : Severity) (site : CallSite) (elapsed : String) : Record :=
  let record := (empty severity).add severity.label |>.add ": " |>.add site.file
  (record.add (":" ++ toString site.line ++ ":" ++ toString site.column ++ " ")).stamp elapsed

/-- The record with a message behind it: the rendering, or a note why there is none. -/
def format (record : Record) (format : String) (arguments : List α) (reveal : Bool) : Record :=
  match record.render format arguments reveal with
  | .ok record => record
  | .error error => record.add (malformedNote format error)

/-- A new part is the end of the text. -/
theorem text_add (record : Record) (part : String) : (record.add part).text = record.text ++ part := by
  apply String.ext
  simp [text, add, String.toList_join]

end Record

end PrivateLog
