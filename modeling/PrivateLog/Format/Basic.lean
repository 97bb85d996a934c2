import PrivateLog.Text.Bytes
import PrivateLog.Value.Redaction

/-!
# Format strings

A format string is text with markers in it: `%s` for the next argument, with a word in braces in between where the
marker names a policy, and `%%` for a percent sign. Reading goes character by character; what has been begun and where
is the state. `scan_append` says that a format is read in two parts, the second from the state in which the first ends.
-/

namespace PrivateLog.Format

/-- Why a format string cannot be rendered. Offsets are those of the percent sign, in bytes. -/
inductive Error where
  | unknownSpecifier (offset : Nat) (found : Option Char)
  | unterminatedQualifier (offset : Nat)
  | unknownQualifier (offset : Nat) (qualifier : String)
  | argumentCount (expected provided : Nat)
  deriving DecidableEq, Repr

/-- The message for an error. -/
def Error.message : Error → String
  | .unknownSpecifier offset (some c) => "unknown conversion `%" ++ c.toString ++ "` at byte " ++ toString offset
  | .unknownSpecifier offset none => "`%` at byte " ++ toString offset ++ " ends the format string"
  | .unterminatedQualifier offset => "unterminated `%\x7b` annotation at byte " ++ toString offset
  | .unknownQualifier offset qualifier => "unknown annotation `" ++ qualifier ++ "` at byte " ++ toString offset
  | .argumentCount expected provided =>
    "format string has " ++ toString expected ++ " markers but " ++ toString provided ++ " arguments were provided"

/-- A piece of a format string: literal text, or a marker. -/
inductive Piece where
  | literal (text : String)
  | value (policy : DisplayPolicy)
  deriving DecidableEq, Repr

/-- What one or more characters of a format stand for. -/
inductive Mark where
  | character (c : Char)
  | value (policy : DisplayPolicy)
  deriving DecidableEq, Repr

/-- What has been begun: nothing, a percent sign, a word in braces behind one (last character first), or a marker of
which the braces are closed. -/
inductive State where
  | text
  | percent (start : Nat)
  | qualifier (start : Nat) (name : List Char)
  | closed (start : Nat) (name : List Char)
  deriving DecidableEq, Repr

/-- Reads one character that stands at `offset`: the state behind it, and what is complete with it. -/
def step (offset : Nat) (c : Char) : State → Except Error (State × Option Mark)
  | .text => if c = '%' then .ok (.percent offset, none) else .ok (.text, some (.character c))
  | .percent start =>
    if c = '%' then .ok (.text, some (.character '%'))
    else if c = 's' then .ok (.text, some (.value .unmarked))
    else if c = '{' then .ok (.qualifier start [], none)
    else .error (.unknownSpecifier start (some c))
  | .qualifier start name =>
    if c = '}' then .ok (.closed start name, none) else .ok (.qualifier start (c :: name), none)
  | .closed start name =>
    if c = 's' then
      match DisplayPolicy.ofQualifier? (String.ofList name.reverse) with
      | some policy => .ok (.text, some (.value policy))
      | none => .error (.unknownQualifier start (String.ofList name.reverse))
    else .error (.unknownSpecifier start (some c))

/-- Whether a format may end in a state. -/
def finish : State → Except Error Unit
  | .text => .ok ()
  | .percent start => .error (.unknownSpecifier start none)
  | .qualifier start _ => .error (.unterminatedQualifier start)
  | .closed start _ => .error (.unknownSpecifier start none)

/-- Reads characters of which the first stands at `offset`: what they stand for, and the state behind them. -/
def scan (state : State) (offset : Nat) : List Char → Except Error (List Mark × State)
  | [] => .ok ([], state)
  | c :: text => do
    let (state, mark?) ← step offset c state
    let (marks, state) ← scan state (offset + c.utf8Size) text
    return (mark?.toList ++ marks, state)

/-- What the characters of a format string stand for. -/
def marks (format : List Char) : Except Error (List Mark) := do
  let (marks, state) ← scan .text 0 format
  finish state
  return marks

/-- The literal piece that some characters make up, if there are any. -/
def literalOf (characters : List Char) : List Piece :=
  if characters.isEmpty then [] else [.literal (String.ofList characters)]

/-- Gathers runs of characters into literal pieces; `run` holds those of the run at hand, last first. -/
def gather (run : List Char) : List Mark → List Piece
  | [] => literalOf run.reverse
  | .character c :: marks => gather (c :: run) marks
  | .value policy :: marks => literalOf run.reverse ++ .value policy :: gather [] marks

/-- The pieces of a format string: no two literal ones are neighbours and none is empty. -/
def parse (format : String) : Except Error (List Piece) :=
  gather [] <$> marks format.toList

/-- A format is read in two parts. -/
theorem scan_append (state : State) (offset : Nat) (a b : List Char) :
    scan state offset (a ++ b) = (do
      let (first, state) ← scan state offset a
      let (second, state) ← scan state (offset + Text.byteLength a) b
      return (first ++ second, state)) := by
  induction a generalizing state offset with
  | nil => cases h : scan state offset b <;> simp [scan, Text.byteLength, h, bind, Except.bind, pure, Except.pure]
  | cons c a ih =>
    simp only [List.cons_append, scan, Text.byteLength]
    cases step offset c state with
    | error e => rfl
    | ok r =>
      simp only [bind, Except.bind, ih, Nat.add_assoc]
      cases scan r.1 (offset + c.utf8Size) a with
      | error e => rfl
      | ok s =>
        simp only [pure, Except.pure]
        cases scan s.2 (offset + (c.utf8Size + Text.byteLength a)) b with
        | error e => rfl
        | ok t => simp

end PrivateLog.Format
