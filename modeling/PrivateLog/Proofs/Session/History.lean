import PrivateLog.Session
import PrivateLog.Proofs.Registry.Texts

/-!
# What a history tells

The commands of a session so far are its history, latest first. What the settings, the names, the global list and the texts of
the loggers are now can be told from the history alone, by looking back for the last command that matters: `least`, `reveal`,
`number`, `handle?`, `globals` and `kept?`. None of these looks at a session. A call in source text comes to the same as a
message whose format is compiled and whose arguments are evaluated (`Command.wish?`).
-/

namespace PrivateLog

/-- What a command asks to have logged, and whether it asks first if that is enabled. -/
structure Wish where
  message : Message
  delivery : Delivery
  checked : Bool
  target : Option String
  access : Nat → Access

/-- What a command asks to have logged, if it asks for that. A call in source text does if it follows the grammar and all its
expressions have values. -/
def Command.wish? : Command → Option Wish
  | .log message delivery checked target access => some ⟨message, delivery, checked, target, access⟩
  | .call source severity delivery environment site known => do
    let invocation ← (Invocation.ofSource source).toOption
    let template ← invocation.template.toOption
    let compiled := template.compile severity
    let evaluation ← (evaluate environment invocation.named compiled.arguments).toOption
    let message := ⟨severity, site, compiled.format, evaluation.values⟩
    let target := invocation.logger.map fun logger => known.getD (Token.text logger)
    return ⟨message, delivery, true, target, fun handle => .borrowed (.direct handle)⟩
  | _ => none

/-- A record that was handed over: how, and to the loggers of which handles, one after another. -/
structure Submission where
  delivery : Delivery
  record : Record
  handles : List Nat

namespace Session

/-- The commands of a session so far, latest first, each with the time that had passed. -/
abbrev History := List (String × Command)

namespace History

/-- The least severity that is logged: that of the last command that set it, or the standard one. -/
def least : History → Severity
  | [] => Settings.least {}
  | (_, .setLeast severity) :: _ => severity
  | (_, .reset) :: _ => Settings.least {}
  | _ :: earlier => least earlier

/-- Whether private values are shown: what the last command says that set it, or the standard. -/
def reveal : History → Bool
  | [] => Settings.reveal {}
  | (_, .setReveal reveal) :: _ => reveal
  | (_, .reset) :: _ => Settings.reveal {}
  | _ :: earlier => reveal earlier

/-- The number of loggers: the console and those created since. -/
def number : History → Nat
  | [] => 1
  | (_, .create _ _) :: earlier => number earlier + 1
  | _ :: earlier => number earlier

/-- The handle of the logger that was last created under a name. -/
def handle? : History → String → Option Nat
  | [], _ => none
  | (_, .create name _) :: earlier, name' => if name' = name then some (number earlier) else handle? earlier name'
  | _ :: earlier, name => handle? earlier name

/-- The global list: that of the last command that replaced it, with all names known, and the loggers added since. -/
def globals : History → List Nat
  | [] => [0]
  | (_, .setGlobals names) :: earlier => (names.mapM (handle? earlier)).getD (globals earlier)
  | (_, .addGlobal name) :: earlier => globals earlier ++ (handle? earlier name).toList
  | _ :: earlier => globals earlier

/-- Whether a wish is granted: it does not ask first, or its severity reaches the least one. -/
def grants (earlier : History) (wish : Wish) : Bool :=
  !wish.checked || wish.message.severity.atLeast (least earlier)

/-- Whom a wish concerns: the one logger it names, if that is known, or all global ones. -/
def handles? (earlier : History) (wish : Wish) : Option (List Nat) :=
  match wish.target with
  | some name => (handle? earlier name).map fun handle => [(wish.access handle).handle]
  | none => some (globals earlier)

/-- What a record begins with: the severity, the place of the call, and the time. -/
def prelude (elapsed : String) (message : Message) : List String :=
  [message.severity.label, ": ", message.site.file,
    ":" ++ toString message.site.line ++ ":" ++ toString message.site.column ++ " ", "[" ++ elapsed ++ "] "]

/-- The note that stands for a format that cannot be rendered. -/
def note (message : Message) (error : Format.Error) : String :=
  "<malformed log format " ++ String.ofList (Text.quote '"' message.format.toList) ++ ": " ++ error.message ++ ">"

/-- The record of a message at some time: behind the prelude stands what is written for the format, with private values shown or
not as the history says that they are then, or the note why there is nothing. -/
def record (earlier : History) (elapsed : String) (message : Message) : Record where
  parts := prelude elapsed message ++
    match Format.render message.format message.arguments (reveal earlier) with
    | .ok writes => writes
    | .error error => [note message error]
  severity := message.severity

/-- What comes of a wish: its record is handed over to those whom it concerns, if it is granted and they are known. -/
def outcome? (earlier : History) (elapsed : String) (wish : Wish) : Option Submission :=
  if grants earlier wish then
    (handles? earlier wish).map fun handles => ⟨wish.delivery, record earlier elapsed wish.message, handles⟩
  else none

/-- What a command hands over. -/
def submission? (earlier : History) (elapsed : String) (command : Command) : Option Submission :=
  command.wish?.bind (outcome? earlier elapsed)

/-- The texts that the logger of a handle keeps, if it keeps any: those it was created with and those of the records handed to
it since, from the last time on that it was drained. -/
def kept? : History → Nat → Option (List String)
  | [], _ => none
  | (elapsed, command) :: earlier, handle =>
    match command with
    | .create _ logger => if handle = number earlier then logger.lines? else kept? earlier handle
    | .drain name => (kept? earlier handle).map fun lines => if handle? earlier name = some handle then [] else lines
    | .drainToConsole name =>
      (kept? earlier handle).map fun lines => if handle? earlier name = some handle then [] else lines
    | command =>
      match submission? earlier elapsed command with
      | some submission =>
        (kept? earlier handle).map (· ++ List.replicate (submission.handles.count handle) (String.join submission.record.parts))
      | none => kept? earlier handle

end History

/-- The session that a history leads to, from the initial one. -/
def after : History → Session
  | [] => initial
  | (elapsed, command) :: earlier => ((after earlier).step elapsed command).1

end Session

end PrivateLog
