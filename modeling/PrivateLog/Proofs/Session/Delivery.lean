import PrivateLog.Proofs.Logger.Output
import PrivateLog.Proofs.Outcome
import PrivateLog.Proofs.Session.History

/-!
# Delivery follows the history

A session is after each command what its history tells (`Follows`): one lemma says so of each kind of command, and induction
of all histories. What a command hands over changes the texts of those loggers that it concerns, and nothing else.
-/

namespace PrivateLog

namespace Session

open History

/-- The session with nothing shown on the console. -/
def quiet (session : Session) : Session :=
  session.withRegistry { session.registry with printed := "" }

/-- The session behind a command that was carried out or failed. -/
def settle (session : Session) : Except Failure (Session × Answer) → Session
  | .ok (session, _) => session
  | .error _ => session

/-- A session hands over what a command asks to. -/
def handOver (session : Session) (submission : Option Submission) : Session :=
  match submission with
  | some ⟨delivery, record, handles⟩ => session.withRegistry (session.registry.handOver delivery record handles)
  | none => session

/-- A session is what its history tells: its settings, its names, its global list, its loggers and their texts. -/
structure Follows (history : History) (session : Session) : Prop where
  settings_eq : session.registry.settings = ⟨least history, reveal history⟩
  names_eq : ∀ name, session.names.lookup name = handle? history name
  globals_eq : session.registry.globals = globals history
  number_eq : session.registry.loggers.length = number history
  kept_eq : ∀ handle, session.registry.lines? handle = kept? history handle

variable {earlier : History} {session : Session} {elapsed : String} {command : Command}

/-- A session settles where its command leaves it. -/
theorem step_fst (session : Session) (elapsed : String) (command : Command) :
    (session.step elapsed command).1 = settle session.quiet (session.quiet.run elapsed command) := by
  unfold step settle quiet
  dsimp only
  split <;> simp_all

/-- What comes of a command that is carried out. -/
theorem step_eq_ok {session' : Session} {answer : Answer} (h : session.quiet.run elapsed command = .ok (session', answer)) :
    session.step elapsed command = (session', .ok answer, session'.registry.printed) := by
  unfold step
  unfold quiet at h
  dsimp only
  rw [h]

/-- A name is known as the history says. -/
theorem Follows.handle_eq (h : Follows earlier session) (name : String) :
    session.handle name = match handle? earlier name with
      | some handle => .ok handle
      | none => .error (.unknownLogger name) := by
  cases hknown : handle? earlier name <;> simp [handle, h.names_eq, hknown]

/-- A name is known as the history says, whatever the failure is else. -/
theorem Follows.toOption_handle (h : Follows earlier session) (name : String) :
    (session.handle name).toOption = handle? earlier name := by
  rw [h.handle_eq]
  cases handle? earlier name <;> rfl

/-! ## Commands that change no texts -/

/-- What the console shows is nothing that a history tells. -/
theorem Follows.quiet (h : Follows earlier session) : Follows earlier session.quiet :=
  ⟨h.settings_eq, h.names_eq, h.globals_eq, h.number_eq, h.kept_eq⟩

/-- Neither is how often loggers were called. -/
theorem Follows.of_agree (h : Follows earlier session) {registry : Registry} (ha : session.registry.Agree registry) :
    Follows earlier (session.withRegistry registry) where
  settings_eq := ha.settings_eq.trans h.settings_eq
  names_eq := h.names_eq
  globals_eq := ha.globals_eq.trans h.globals_eq
  number_eq := ha.length_eq.trans h.number_eq
  kept_eq handle := (ha.lines_eq handle).trans (h.kept_eq handle)

/-- The commands of which a history tells nothing later. -/
def isIdle : Command → Bool
  | .settings => true
  | .globals => true
  | .count _ => true
  | .callCounts _ => true
  | .prepareToDie => true
  | .farewell _ => true
  | _ => false

/-- A history with one command more tells the same, if it tells nothing of that command. -/
theorem Follows.of_isIdle (h : Follows earlier session) (hidle : isIdle command = true) :
    Follows ((elapsed, command) :: earlier) session := by
  cases command <;> first
    | exact ⟨h.settings_eq, h.names_eq, h.globals_eq, h.number_eq, h.kept_eq⟩
    | cases hidle

/-- Such a command leaves the session as it was, but for how often loggers were called. -/
theorem agree_of_isIdle (hidle : isIdle command = true) : ∃ registry,
    session.registry.Agree registry ∧ settle session (session.run elapsed command) = session.withRegistry registry := by
  cases command with
  | settings => exact ⟨_, .refl _, rfl⟩
  | globals => exact ⟨_, .refl _, rfl⟩
  | count name =>
    refine ⟨session.registry, .refl _, ?_⟩
    rw [run]
    cases session.kept name <;> rfl
  | callCounts name =>
    refine ⟨session.registry, .refl _, ?_⟩
    rw [run]
    cases session.handle name with
    | error => rfl
    | ok handle =>
      rw [Outcome.ok_bind]
      split <;> rfl
  | prepareToDie => exact ⟨_, session.registry.agree_prepareToDie, rfl⟩
  | farewell name =>
    rw [run]
    cases session.handle name with
    | error => exact ⟨_, .refl _, rfl⟩
    | ok handle =>
      refine ⟨_, ?_, rfl⟩
      simp only [Registry.farewellThrough_eq]
      exact (session.registry.agree_farewell _).trans (Registry.agree_farewell _ _)
  | _ => cases hidle

/-- Behind such a command the session is what its history tells. -/
theorem Follows.idle (h : Follows earlier session) (hidle : isIdle command = true) :
    Follows ((elapsed, command) :: earlier) (settle session (session.run elapsed command)) := by
  obtain ⟨registry, hagree, hsettle⟩ := agree_of_isIdle hidle
  rw [hsettle]
  exact (h.of_agree hagree).of_isIdle hidle

/-! ## New loggers, settings and lists -/

/-- A new logger has its name and its texts, and the others theirs. -/
theorem Follows.create (h : Follows earlier session) (name : String) (logger : Logger) :
    Follows ((elapsed, .create name logger) :: earlier)
      (settle session (session.run elapsed (.create name logger))) where
  settings_eq := h.settings_eq
  names_eq name' := by
    by_cases hn : name' = name
    · subst hn
      simp [run, settle, Registry.create, handle?, h.number_eq]
    · have hne : (name' == name) = false := beq_false_of_ne hn
      simp [run, settle, Registry.create, handle?, List.lookup_cons, hn, hne, h.names_eq]
  globals_eq := h.globals_eq
  number_eq := by simp [run, settle, Registry.create, number, h.number_eq]
  kept_eq handle := by
    have hkept := h.kept_eq handle
    by_cases hn : handle = number earlier
    · simp [run, settle, Registry.create, Registry.lines?, Registry.logger?, kept?, hn, ← h.number_eq]
    · have hne : handle ≠ session.registry.loggers.length := by rwa [h.number_eq]
      rw [kept?, if_neg hn, ← hkept]
      simp only [run, settle, Registry.create, Registry.lines?, Registry.logger?]
      rcases Nat.lt_or_gt_of_ne hne with hlt | hgt
      · rw [List.getElem?_append_left hlt]
      · rw [List.getElem?_eq_none (by simp; omega), List.getElem?_eq_none (by omega)]

/-- The commands that change a setting. -/
def isSetting : Command → Bool
  | .setLeast _ => true
  | .setReveal _ => true
  | .reset => true
  | _ => false

/-- The settings are what they were set to. -/
theorem Follows.of_isSetting (h : Follows earlier session) (hset : isSetting command = true) :
    Follows ((elapsed, command) :: earlier) (settle session (session.run elapsed command)) := by
  cases command with
  | setLeast | setReveal | reset =>
    refine ⟨?_, h.names_eq, h.globals_eq, h.number_eq, h.kept_eq⟩
    simp [run, settle, withSettings, withRegistry, least, reveal, h.settings_eq]
  | _ => cases hset

/-- The global list is replaced if all names are known, and else is as it was. -/
theorem Follows.setGlobals (h : Follows earlier session) (names : List String) :
    Follows ((elapsed, .setGlobals names) :: earlier)
      (settle session (session.run elapsed (.setGlobals names))) := by
  have hnames : names.mapM (handle? earlier) = (names.mapM session.handle).toOption := by
    rw [Outcome.toOption_mapM]
    congr 1
    exact funext fun name => (h.toOption_handle name).symm
  rw [run]
  cases hhandles : names.mapM session.handle with
  | error failure =>
    rw [hhandles] at hnames
    refine ⟨h.settings_eq, h.names_eq, ?_, h.number_eq, h.kept_eq⟩
    rw [History.globals, hnames]
    exact h.globals_eq
  | ok handles =>
    rw [hhandles] at hnames
    refine ⟨h.settings_eq, h.names_eq, ?_, h.number_eq, h.kept_eq⟩
    rw [History.globals, hnames]
    rfl

/-- A logger is added to the global list if its name is known. -/
theorem Follows.addGlobal (h : Follows earlier session) (name : String) :
    Follows ((elapsed, .addGlobal name) :: earlier)
      (settle session (session.run elapsed (.addGlobal name))) := by
  rw [run, h.handle_eq]
  cases hhandle : handle? earlier name with
  | none =>
    refine ⟨h.settings_eq, h.names_eq, ?_, h.number_eq, h.kept_eq⟩
    rw [History.globals, hhandle, Option.toList_none, List.append_nil]
    exact h.globals_eq
  | some handle =>
    refine ⟨h.settings_eq, h.names_eq, ?_, h.number_eq, h.kept_eq⟩
    rw [History.globals, hhandle, ← h.globals_eq]
    rfl

/-! ## Draining -/

/-- The texts that answer to a name are those that the logger keeps which the history tells. -/
theorem Follows.kept_eq_ok_iff (h : Follows earlier session) {name : String} {handle : Nat} {logger : Logger}
    {lines : List String} : session.kept name = .ok (handle, logger, lines) ↔
      handle? earlier name = some handle ∧ session.registry.logger? handle = some logger ∧ logger.lines? = some lines := by
  rw [Session.kept, h.handle_eq]
  constructor
  · intro hkept
    cases hhandle : handle? earlier name with
    | none =>
      rw [hhandle] at hkept
      cases hkept
    | some handle' =>
      cases hlogger : session.registry.logger? handle' with
      | none => simp [hhandle, hlogger] at hkept
      | some logger' =>
        cases hlines : logger'.lines? with
        | none => simp [hhandle, hlogger, hlines] at hkept
        | some lines' =>
          simp only [hhandle, Outcome.ok_bind, hlogger, hlines, Outcome.pure_eq_ok, Except.ok.injEq,
            Prod.mk.injEq] at hkept
          obtain ⟨rfl, rfl, rfl⟩ := hkept
          exact ⟨rfl, hlogger, hlines⟩
  · rintro ⟨hhandle, hlogger, hlines⟩
    simp [hhandle, hlogger, hlines]

/-- A logger that keeps texts answers to its name. -/
theorem Follows.exists_kept (h : Follows earlier session) {name : String} {handle : Nat} {lines : List String}
    (hhandle : handle? earlier name = some handle) (hlines : kept? earlier handle = some lines) :
    ∃ logger, session.kept name = .ok (handle, logger, lines) := by
  rw [← h.kept_eq, Registry.lines?] at hlines
  obtain ⟨logger, hlogger, hkept⟩ := Option.bind_eq_some_iff.1 hlines
  exact ⟨logger, h.kept_eq_ok_iff.2 ⟨hhandle, hlogger, hkept⟩⟩

/-- A logger that answers to a name is drained, and no other. -/
theorem Follows.lines?_cleared (h : Follows earlier session) {name : String} {handle : Nat} {logger : Logger}
    {lines : List String} (hkept : session.kept name = .ok (handle, logger, lines)) (other : Nat) :
    (session.registry.replace handle logger.clear).lines? other =
      (kept? earlier other).map fun lines => if handle? earlier name = some other then [] else lines := by
  obtain ⟨hhandle, hlogger, -⟩ := h.kept_eq_ok_iff.1 hkept
  rw [Registry.lines?_replace _ _ _ hlogger, hhandle, ← h.kept_eq]
  by_cases ho : other = handle
  · subst ho
    simp [Registry.lines?, hlogger, Logger.lines?_clear_eq_map]
  · simp [ho, Ne.symm ho]

/-- When no logger answers to a name, no texts are lost. -/
theorem Follows.lines?_of_error (h : Follows earlier session) {name : String} {failure : Failure}
    (hkept : session.kept name = .error failure) (other : Nat) : session.registry.lines? other =
      (kept? earlier other).map fun lines => if handle? earlier name = some other then [] else lines := by
  rw [h.kept_eq]
  -- a name that is known stands for no texts when its logger keeps none
  by_cases hhandle : handle? earlier name = some other
  · cases hlines : kept? earlier other with
    | none => rfl
    | some lines =>
      obtain ⟨logger, hok⟩ := h.exists_kept hhandle hlines
      rw [hkept] at hok
      cases hok
  · simp [hhandle]

/-- The commands that drain a logger. -/
def isDrain : Command → Bool
  | .drain _ => true
  | .drainToConsole _ => true
  | _ => false

/-- The logger of a name is drained, if there is one that keeps texts. -/
theorem Follows.of_isDrain (h : Follows earlier session) (hdrain : isDrain command = true) :
    Follows ((elapsed, command) :: earlier) (settle session (session.run elapsed command)) := by
  cases command with
  | drain name | drainToConsole name =>
    rw [run]
    cases hkept : session.kept name with
    | error => exact ⟨h.settings_eq, h.names_eq, h.globals_eq, h.number_eq, h.lines?_of_error hkept⟩
    | ok =>
      exact ⟨h.settings_eq, h.names_eq, h.globals_eq, List.length_set.trans h.number_eq, h.lines?_cleared hkept⟩
  | _ => cases hdrain

/-! ## Handing over -/

/-- The commands that have something logged. -/
def isLogging : Command → Bool
  | .log _ _ _ _ _ => true
  | .call _ _ _ _ _ _ => true
  | _ => false

/-- Such a command adds to the texts what it hands over. -/
theorem kept?_of_isLogging (hlog : isLogging command = true) (handle : Nat) :
    kept? ((elapsed, command) :: earlier) handle =
      match submission? earlier elapsed command with
      | some submission =>
        (kept? earlier handle).map (· ++ List.replicate (submission.handles.count handle) (String.join submission.record.parts))
      | none => kept? earlier handle := by
  cases command with
  | log | call => rfl
  | _ => cases hlog

/-- What is handed over adds its text to each logger as often as that is handed it, and changes nothing else. -/
theorem Follows.handOver (h : Follows earlier session) (hlog : isLogging command = true) :
    Follows ((elapsed, command) :: earlier) (session.handOver (submission? earlier elapsed command)) := by
  cases hsubmission : submission? earlier elapsed command with
  | none =>
    have hkept : ∀ handle, session.registry.lines? handle = kept? ((elapsed, command) :: earlier) handle := by
      intro handle
      rw [kept?_of_isLogging hlog, hsubmission]
      exact h.kept_eq handle
    cases command with
    | log | call => exact ⟨h.settings_eq, h.names_eq, h.globals_eq, h.number_eq, hkept⟩
    | _ => cases hlog
  | some submission =>
    obtain ⟨delivery, record, handles⟩ := submission
    have hkept : ∀ handle, (session.registry.handOver delivery record handles).lines? handle =
        kept? ((elapsed, command) :: earlier) handle := by
      intro handle
      rw [kept?_of_isLogging hlog, hsubmission, ← h.kept_eq]
      exact Registry.lines?_handOver ..
    cases command with
    | log | call =>
      exact ⟨(Registry.settings_handOver ..).trans h.settings_eq, h.names_eq,
        (Registry.globals_handOver ..).trans h.globals_eq, (Registry.length_handOver ..).trans h.number_eq, hkept⟩
    | _ => cases hlog

/-- The record of a message is the one that the history tells. -/
theorem format_start_eq (earlier : History) (elapsed : String) (message : Message) :
    (Record.start message.severity message.site elapsed).format message.format message.arguments (reveal earlier) =
      History.record earlier elapsed message := by
  rw [Record.format, Record.render, History.record]
  cases Format.render message.format message.arguments (reveal earlier) <;> rfl

/-- A wish is granted, and its record handed over, as the history says. -/
theorem Follows.settle_log (h : Follows earlier session) (wish : Wish) :
    settle session (session.log elapsed wish.message wish.delivery wish.checked wish.target wish.access) =
      session.handOver (outcome? earlier elapsed wish) := by
  have hgrants : (wish.checked && !session.registry.settings.isEnabled wish.message.severity) =
      !grants earlier wish := by
    rw [grants, h.settings_eq, Settings.isEnabled]
    cases wish.checked <;> simp
  have hrecord : session.registry.record wish.message.severity wish.message.site elapsed wish.message.format
      wish.message.arguments = History.record earlier elapsed wish.message := by
    rw [Registry.record, h.settings_eq]
    exact format_start_eq ..
  rw [Session.log, outcome?]
  cases hgranted : grants earlier wish with
  | false => simp [hgrants, hgranted, settle, Session.handOver]
  | true =>
    cases htarget : wish.target with
    | none =>
      simp [hgrants, hgranted, handles?, htarget, hrecord, settle, Session.handOver, Registry.submit_eq,
        Registry.addressees, h.globals_eq]
    | some name =>
      cases hhandle : handle? earlier name with
      | none => simp [hgrants, hgranted, handles?, htarget, h.handle_eq, hhandle, settle, Session.handOver]
      | some handle =>
        simp [hgrants, hgranted, handles?, htarget, h.handle_eq, hhandle, hrecord, settle, Session.handOver,
          Registry.submit_eq, Registry.addressees]

/-- A call in source text comes to the same as what it asks to have logged. -/
theorem settle_call {source : String} {severity : Severity} {delivery : Delivery} {environment : Environment}
    {site : CallSite} {known : Option String} :
    settle session (session.call elapsed source severity delivery environment site known) =
      match (Command.call source severity delivery environment site known).wish? with
      | some wish =>
        settle session (session.log elapsed wish.message wish.delivery wish.checked wish.target wish.access)
      | none => session := by
  rw [Session.call, Command.wish?]
  cases Invocation.ofSource source with
  | error => rfl
  | ok invocation =>
    cases htemplate : invocation.template with
    | error => simp [htemplate, Except.mapError, Except.toOption, settle]
    | ok template =>
      cases hevaluation : evaluate environment invocation.named (template.compile severity).arguments with
      | error =>
        cases henabled : session.registry.settings.isEnabled severity <;>
          simp [htemplate, hevaluation, Except.mapError, Except.toOption, settle]
      | ok evaluation =>
        cases henabled : session.registry.settings.isEnabled severity with
        | false =>
          simp [htemplate, henabled, hevaluation, Except.mapError, Except.toOption, settle, Session.log]
        | true =>
          cases hlogger : invocation.logger with
          | none =>
            simp [htemplate, henabled, hevaluation, hlogger, Except.mapError, Except.toOption, settle, Session.log]
          | some logger =>
            cases hhandle : session.handle (known.getD (Token.text logger)) <;>
              simp [htemplate, henabled, hevaluation, hlogger, hhandle, Except.mapError, Except.toOption, settle,
                Session.log]

/-- Behind a command that has something logged the session is what its history tells. -/
theorem Follows.of_isLogging (h : Follows earlier session) (hlog : isLogging command = true) :
    Follows ((elapsed, command) :: earlier) (settle session (session.run elapsed command)) := by
  have hover : Follows ((elapsed, command) :: earlier) (session.handOver (submission? earlier elapsed command)) :=
    h.handOver hlog
  cases command with
  | log message delivery checked target access =>
    rw [run, h.settle_log ⟨message, delivery, checked, target, access⟩]
    exact hover
  | call source severity delivery environment site known =>
    rw [submission?] at hover
    rw [run, settle_call]
    cases hwish : (Command.call source severity delivery environment site known).wish? with
    | none =>
      rw [hwish] at hover
      exact hover
    | some wish =>
      rw [hwish] at hover
      dsimp only
      rw [h.settle_log wish]
      exact hover
  | _ => cases hlog

/-! ## Histories -/

/-- At first a session is what the empty history tells. -/
theorem follows_initial : Follows [] initial where
  settings_eq := rfl
  names_eq _ := rfl
  globals_eq := rfl
  number_eq := rfl
  kept_eq handle := by
    cases handle <;> rfl

/-- Every command leaves the session what its history tells. -/
theorem Follows.step (h : Follows earlier session) (elapsed : String) (command : Command) :
    Follows ((elapsed, command) :: earlier) (session.step elapsed command).1 := by
  rw [step_fst]
  cases command with
  | create name logger => exact h.quiet.create name logger
  | setLeast | setReveal | reset => exact h.quiet.of_isSetting rfl
  | setGlobals names => exact h.quiet.setGlobals names
  | addGlobal name => exact h.quiet.addGlobal name
  | log | call => exact h.quiet.of_isLogging rfl
  | drain | drainToConsole => exact h.quiet.of_isDrain rfl
  | settings | globals | count | callCounts | prepareToDie | farewell => exact h.quiet.idle rfl

/-- After every history a session is what that tells. -/
theorem follows_after (history : History) : Follows history (after history) := by
  induction history with
  | nil => exact follows_initial
  | cons entry earlier ih => exact ih.step entry.1 entry.2

/-- What the commands answer that ask for texts, and those that are not enabled. A drain answers all texts that the history
tells, and leaves none; a message whose severity is below the least one is skipped, whatever else stands in it: nothing is
shown and nothing changed. -/
structure Answers (history : History) (session : Session) : Prop where
  drained : ∀ {elapsed name handle lines}, handle? history name = some handle → kept? history handle = some lines →
    (session.step elapsed (.drain name)).2 = (.ok (.lines (Lines.separated lines) 0), "")
  printed : ∀ {elapsed name handle lines}, handle? history name = some handle → kept? history handle = some lines →
    (session.step elapsed (.drainToConsole name)).2 = (.ok (.count 0), Lines.ended lines)
  counted : ∀ {elapsed name handle lines}, handle? history name = some handle → kept? history handle = some lines →
    (session.step elapsed (.count name)).2 = (.ok (.count lines.length), "")
  skipped_log : ∀ {elapsed message delivery target access}, message.severity.rank < (least history).rank →
    session.step elapsed (.log message delivery true target access) = (session.quiet, .ok .skipped, "")
  skipped_call : ∀ {elapsed source severity delivery environment site known invocation template},
    Invocation.ofSource source = .ok invocation → invocation.template = .ok template →
    severity.rank < (least history).rank →
    session.step elapsed (.call source severity delivery environment site known) = (session.quiet, .ok .skipped, "")

/-- A severity below the least one is not enabled. -/
theorem Follows.isEnabled_eq_false (h : Follows earlier session) {severity : Severity}
    (hsevere : severity.rank < (least earlier).rank) : session.registry.settings.isEnabled severity = false := by
  rw [← Bool.not_eq_true, Settings.isEnabled_iff, h.settings_eq]
  exact Nat.not_le_of_lt hsevere

/-- A session that is what its history tells answers so. -/
theorem Follows.answers (h : Follows earlier session) : Answers earlier session where
  drained := by
    intro elapsed name handle lines hhandle hlines
    obtain ⟨logger, hkept⟩ := h.quiet.exists_kept hhandle hlines
    rw [step_eq_ok (by rw [run, hkept]; rfl), Logger.joined_eq]
    rfl
  printed := by
    intro elapsed name handle lines hhandle hlines
    obtain ⟨logger, hkept⟩ := h.quiet.exists_kept hhandle hlines
    rw [step_eq_ok (by rw [run, hkept]; rfl)]
    have hshown : session.quiet.registry.printed = "" := rfl
    simp [withRegistry, Registry.print, Registry.replace, hshown, Logger.printed_eq]
  counted := by
    intro elapsed name handle lines hhandle hlines
    obtain ⟨logger, hkept⟩ := h.quiet.exists_kept hhandle hlines
    rw [step_eq_ok (by rw [run, hkept]; rfl)]
    rfl
  skipped_log := by
    intro elapsed message delivery target access hsevere
    refine step_eq_ok ?_
    simp [run, log, h.quiet.isEnabled_eq_false hsevere]
  skipped_call := by
    intro elapsed source severity delivery environment site known invocation template hsource htemplate hsevere
    refine step_eq_ok ?_
    simp [run, call, hsource, htemplate, Except.mapError, h.quiet.isEnabled_eq_false hsevere]

/-- After every history the session is what the history tells, and answers so. -/
theorem delivery_after (history : History) : Follows history (after history) ∧ Answers history (after history) :=
  ⟨follows_after history, (follows_after history).answers⟩

end Session

end PrivateLog
