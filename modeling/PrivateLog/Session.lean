import PrivateLog.Call

/-!
# Sessions

A session is a sequence of commands to one registry in which loggers have names. Each command has an answer, and a
failing one leaves the registry as it was. A name may be given to a new logger; what stands in the global list is then
still the old one.
-/

namespace PrivateLog

/-- A registry in which loggers have names, latest first. -/
structure Session where
  registry : Registry
  names : List (String × Nat)
  deriving Repr

/-- A message to be logged with a format that is already compiled. -/
structure Message where
  severity : Severity
  site : CallSite
  format : String
  arguments : List Value
  deriving Repr

/-- A command. A call in source text names its logger by an expression; `known` is the name that this expression stands
for where its text is not the name itself. -/
inductive Command where
  | create (name : String) (logger : Logger)
  | setLeast (severity : Severity)
  | setReveal (reveal : Bool)
  | reset
  | settings
  | setGlobals (names : List String)
  | addGlobal (name : String)
  | globals
  | log (message : Message) (delivery : Delivery) (checked : Bool) (target : Option String) (access : Nat → Access)
  | call (source : String) (severity : Severity) (delivery : Delivery) (environment : Environment) (site : CallSite)
      (known : Option String)
  | drain (name : String)
  | drainToConsole (name : String)
  | count (name : String)
  | callCounts (name : String)
  | prepareToDie
  | farewell (name : String)

/-- Why a command fails. -/
inductive Failure where
  | unknownLogger (name : String)
  | unbound (text : String)
  | source (error : SourceError)
  deriving DecidableEq, Repr

/-- The answer to a command. -/
inductive Answer where
  | done
  | settings (settings : Settings)
  | globals (count : Nat)
  | record (text : String)
  | called (format : String) (evaluated : List String)
  | skipped
  | lines (text : String) (left : Nat)
  | count (lines : Nat)
  | callCounts (counts : CallCounts)
  deriving Repr

namespace Session

/-- A session before its first command. -/
def initial : Session := ⟨.initial, []⟩

/-- The handle of a name. -/
def handle (session : Session) (name : String) : Except Failure Nat :=
  match session.names.lookup name with
  | some handle => .ok handle
  | none => .error (.unknownLogger name)

/-- The texts that a logger keeps; one that keeps none does not answer to its name here. -/
def kept (session : Session) (name : String) : Except Failure (Nat × Logger × List String) := do
  let handle ← session.handle name
  match session.registry.logger? handle with
  | some logger =>
    match logger.lines? with
    | some lines => return (handle, logger, lines)
    | none => throw (.unknownLogger name)
  | none => throw (.unknownLogger name)

/-- The session with another registry. -/
def withRegistry (session : Session) (registry : Registry) : Session :=
  { session with registry := registry }

/-- The session with other settings. -/
def withSettings (session : Session) (settings : Settings) : Session :=
  session.withRegistry { session.registry with settings := settings }

/-- Logs a message; `elapsed` is the time that has passed. -/
def log (session : Session) (elapsed : String) (message : Message) (delivery : Delivery) (checked : Bool)
    (target : Option String) (access : Nat → Access) : Except Failure (Session × Answer) := do
  let registry := session.registry
  if checked && !registry.settings.isEnabled message.severity then return (session, .skipped)
  let target ← target.mapM session.handle
  let record := registry.record message.severity message.site elapsed message.format message.arguments
  return (session.withRegistry (registry.submit delivery record (target.map access)), .record record.text)

/-- Carries out a logging call given in source text. -/
def call (session : Session) (elapsed : String) (source : String) (severity : Severity) (delivery : Delivery)
    (environment : Environment) (site : CallSite) (known : Option String) : Except Failure (Session × Answer) := do
  let registry := session.registry
  let invocation ← (Invocation.ofSource source).mapError .source
  let template ← invocation.template.mapError .source
  let compiled := template.compile severity
  if !registry.settings.isEnabled severity then return (session, .skipped)
  let evaluation ← (evaluate environment invocation.named compiled.arguments).mapError .unbound
  let target ← invocation.logger.mapM fun logger => session.handle (known.getD (Token.text logger))
  let record := registry.record severity site elapsed compiled.format evaluation.values
  return (session.withRegistry (registry.submit delivery record (target.map fun handle => .borrowed (.direct handle))),
    .called compiled.format evaluation.evaluated)

/-- Carries out a command; `elapsed` is the time that has passed. -/
def run (session : Session) (elapsed : String) : Command → Except Failure (Session × Answer)
  | .create name logger =>
    let (registry, handle) := session.registry.create logger
    .ok (⟨registry, (name, handle) :: session.names⟩, .done)
  | .setLeast severity =>
    let settings := { session.registry.settings with least := severity }
    .ok (session.withSettings settings, .settings settings)
  | .setReveal reveal =>
    let settings := { session.registry.settings with reveal := reveal }
    .ok (session.withSettings settings, .settings settings)
  | .reset => .ok (session.withSettings {}, .settings {})
  | .settings => .ok (session, .settings session.registry.settings)
  | .setGlobals names => do
    let handles ← names.mapM session.handle
    return (session.withRegistry (session.registry.setGlobals handles), .globals handles.length)
  | .addGlobal name => do
    let registry := session.registry.addGlobal (← session.handle name)
    return (session.withRegistry registry, .globals registry.globals.length)
  | .globals => .ok (session, .globals session.registry.globals.length)
  | .log message delivery checked target access => session.log elapsed message delivery checked target access
  | .call source severity delivery environment site known =>
    session.call elapsed source severity delivery environment site known
  | .drain name => do
    let (handle, logger, lines) ← session.kept name
    return (session.withRegistry (session.registry.replace handle logger.clear), .lines (Logger.joined lines) 0)
  | .drainToConsole name => do
    let (handle, logger, lines) ← session.kept name
    let registry := (session.registry.print (Logger.printed lines)).replace handle logger.clear
    return (session.withRegistry registry, .count 0)
  | .count name => do
    let (_, _, lines) ← session.kept name
    return (session, .count lines.length)
  | .callCounts name => do
    let handle ← session.handle name
    match session.registry.logger? handle with
    | some (.counting _ counts) => return (session, .callCounts counts)
    | _ => throw (.unknownLogger name)
  | .prepareToDie => .ok (session.withRegistry session.registry.prepareToDie, .done)
  | .farewell name => do
    let handle ← session.handle name
    let registry := session.registry.farewellThrough (.shared (.direct handle))
    return (session.withRegistry (registry.farewellThrough (.borrowed (.direct handle))), .done)

/-- Carries out a command: the session behind it, the answer or why there is none, and what the console has shown. -/
def step (session : Session) (elapsed : String) (command : Command) : Session × Except Failure Answer × String :=
  let quiet := session.withRegistry { session.registry with printed := "" }
  match quiet.run elapsed command with
  | .ok (session, answer) => (session, .ok answer, session.registry.printed)
  | .error failure => (quiet, .error failure, "")

end Session

end PrivateLog
