import PrivateLog.Proofs.Registry.Texts

/-!
# The calls of posts

A post makes calls of methods of loggers. Which ones these are does not depend on what the loggers are: for loggers of which
nothing is known, a post is one call of the method that goes with its delivery for each logger listed, in order, with the same
record, whatever references and shared pointers lie in front of a logger (`post_eq_foldl_perform`, `farewell_eq_foldl_perform`).
The registry posts in this way (`Registry.post_eq_methods`). Memory and console make no difference between the two methods that
take a record, so an awaited post to such loggers has the same effect as an immediate one (`Registry.awaited_posts_agree`).
-/

namespace PrivateLog

/-! ## Loggers of any kind -/

/-- The methods of a logger, by what they do to a state. -/
structure Methods (σ : Type) where
  finish : Record → σ → σ
  finishAwaited : Record → σ → σ
  prepareToDie : σ → σ

/-- A call of a method. -/
inductive MethodCall where
  | finish (record : Record)
  | finishAwaited (record : Record)
  | prepareToDie
  deriving DecidableEq, Repr

/-- The call that hands a record over. -/
def MethodCall.submit (delivery : Delivery) (record : Record) : MethodCall :=
  match delivery with
  | .immediate => .finish record
  | .awaited => .finishAwaited record

namespace Methods

variable {σ : Type}

/-- The methods of a reference or a shared pointer: each one calls the same method of what lies behind. -/
def forward (target : Methods σ) : Methods σ where
  finish record state := target.finish record state
  finishAwaited record state := target.finishAwaited record state
  prepareToDie state := target.prepareToDie state

/-- The methods of what a call reaches a logger through. -/
def through (loggers : Nat → Methods σ) : Access → Methods σ
  | .direct handle => loggers handle
  | .borrowed access => (through loggers access).forward
  | .shared access => (through loggers access).forward

/-- The method that takes a record. -/
def submit (target : Methods σ) (delivery : Delivery) (record : Record) (state : σ) : σ :=
  match delivery with
  | .immediate => target.finish record state
  | .awaited => target.finishAwaited record state

/-- Hands a record to the loggers listed, one after another. -/
def post (loggers : Nat → Methods σ) (delivery : Delivery) (record : Record) (listed : List Access) (state : σ) : σ :=
  listed.foldl (fun state access => (through loggers access).submit delivery record state) state

/-- Tells the loggers listed, one after another, that the program may end. -/
def farewell (loggers : Nat → Methods σ) (listed : List Access) (state : σ) : σ :=
  listed.foldl (fun state access => (through loggers access).prepareToDie state) state

/-- Makes a call of a method of one of the loggers. -/
def perform (loggers : Nat → Methods σ) (state : σ) (call : Nat × MethodCall) : σ :=
  match call.2 with
  | .finish record => (loggers call.1).finish record state
  | .finishAwaited record => (loggers call.1).finishAwaited record state
  | .prepareToDie => (loggers call.1).prepareToDie state

variable (loggers : Nat → Methods σ)

/-- Through references and shared pointers, each method is that of the logger behind them. -/
theorem through_eq (access : Access) : through loggers access = loggers access.handle := by
  induction access with
  | direct handle => rfl
  | borrowed access ih => rw [through, ih]; rfl
  | shared access ih => rw [through, ih]; rfl

/-- A record is handed over by one call. -/
theorem submit_through_eq_perform (delivery : Delivery) (record : Record) (access : Access) (state : σ) :
    (through loggers access).submit delivery record state =
      perform loggers state (access.handle, .submit delivery record) := by
  rw [through_eq]
  cases delivery <;> rfl

/-- A post makes one call for each logger listed. -/
theorem post_eq_foldl_perform (delivery : Delivery) (record : Record) (listed : List Access) (state : σ) :
    post loggers delivery record listed state =
      (listed.map fun access => (access.handle, MethodCall.submit delivery record)).foldl (perform loggers) state := by
  rw [List.foldl_map, post]
  simp only [submit_through_eq_perform]

/-- A farewell does so too. -/
theorem farewell_eq_foldl_perform (listed : List Access) (state : σ) :
    farewell loggers listed state =
      (listed.map fun access => (access.handle, MethodCall.prepareToDie)).foldl (perform loggers) state := by
  rw [List.foldl_map, farewell]
  simp only [through_eq]
  rfl

end Methods

/-! ## The loggers of a registry -/

/-- Whether a logger keeps its texts in memory or prints them, and does nothing else. -/
def Logger.isPlain : Logger → Bool
  | .memory _ => true
  | .console => true
  | .counting _ _ => false

/-- It makes no difference for such a logger whether it is awaited. -/
theorem Logger.finish_of_isPlain {logger : Logger} (h : logger.isPlain = true) (delivery : Delivery) (record : Record) :
    logger.finish delivery record = logger.finish .immediate record := by
  cases logger with
  | memory lines => rfl
  | console => rfl
  | counting lines counts => cases h

/-- A logger stays plain. -/
theorem Logger.isPlain_finish (logger : Logger) (delivery : Delivery) (record : Record) :
    (logger.finish delivery record).1.isPlain = logger.isPlain := by
  cases logger <;> rfl

namespace Registry

/-- The methods of the logger of a handle. -/
def methods (handle : Nat) : Methods Registry where
  finish record registry := registry.finish .immediate record handle
  finishAwaited record registry := registry.finish .awaited record handle
  prepareToDie registry := registry.farewell handle

/-- Whether there is nothing but memory and console behind a handle. -/
def IsPlain (registry : Registry) (handle : Nat) : Prop :=
  ∀ logger, registry.logger? handle = some logger → logger.isPlain = true

variable (registry : Registry) (delivery : Delivery) (record : Record)

/-- A record is handed to a logger by its methods. -/
theorem finishThrough_eq_methods (access : Access) :
    registry.finishThrough delivery record access = Methods.post methods delivery record [access] registry := by
  rw [finishThrough_eq, Methods.post_eq_foldl_perform]
  cases delivery <;> rfl

/-- A logger is told of the end of the program by its methods. -/
theorem farewellThrough_eq_methods (access : Access) :
    registry.farewellThrough access = Methods.farewell methods [access] registry := by
  rw [farewellThrough_eq, Methods.farewell_eq_foldl_perform]
  rfl

/-- The registry posts to its global loggers, each behind a shared pointer. -/
theorem post_eq_methods :
    registry.post delivery record =
      Methods.post methods delivery record (registry.globals.map fun handle => .shared (.direct handle)) registry := by
  rw [post, Methods.post, List.foldl_map]
  simp only [finishThrough_eq_methods]
  rfl

/-- It tells them of the end of the program in the same way. -/
theorem prepareToDie_eq_methods :
    registry.prepareToDie =
      Methods.farewell methods (registry.globals.map fun handle => .shared (.direct handle)) registry := by
  rw [prepareToDie, Methods.farewell, List.foldl_map]
  simp only [farewellThrough_eq_methods]
  rfl

variable {registry} {handle : Nat}

/-- Handing a record to a plain logger makes no difference between the deliveries. -/
theorem finish_of_isPlain (h : registry.IsPlain handle) :
    registry.finish delivery record handle = registry.finish .immediate record handle := by
  unfold finish
  split
  · rename_i logger hlogger
    rw [Logger.finish_of_isPlain (h logger hlogger)]
  · rfl

/-- A record changes the logger that it is handed to. -/
theorem logger?_finish (other : Nat) :
    (registry.finish delivery record handle).logger? other =
      (registry.logger? other).map fun logger =>
        if other = handle then (logger.finish delivery record).1 else logger := by
  unfold finish
  split
  · rename_i logger hlogger
    obtain ⟨hlt, hat⟩ := List.getElem?_eq_some_iff.1 hlogger
    by_cases ho : other = handle
    · subst ho
      simp [logger?, replace, print, hlt, hat]
    · simp [logger?, replace, print, ho, List.getElem?_set_ne (Ne.symm ho)]
  · rename_i hnone
    by_cases ho : other = handle
    · subst ho
      simp [hnone]
    · simp [ho]

/-- Plain loggers stay plain when a record is handed over. -/
theorem IsPlain.finish {other : Nat} (h : registry.IsPlain other) :
    (registry.finish delivery record handle).IsPlain other := by
  intro logger hlogger
  rw [logger?_finish, Option.map_eq_some_iff] at hlogger
  obtain ⟨before, hbefore, rfl⟩ := hlogger
  split
  · rw [Logger.isPlain_finish]
    exact h before hbefore
  · exact h before hbefore

/-- Handing a record to plain loggers makes no difference between the deliveries. -/
theorem handOver_of_isPlain {handles : List Nat} (h : ∀ handle ∈ handles, registry.IsPlain handle) :
    registry.handOver delivery record handles = registry.handOver .immediate record handles := by
  induction handles generalizing registry with
  | nil => rfl
  | cons handle handles ih =>
    obtain ⟨hfirst, hrest⟩ := List.forall_mem_cons.1 h
    have hstep := finish_of_isPlain delivery record hfirst
    have hplain : ∀ other ∈ handles, (registry.finish .immediate record handle).IsPlain other :=
      fun other hm => (hrest other hm).finish .immediate record
    rw [handOver, handOver, List.foldl_cons, List.foldl_cons, hstep]
    exact ih hplain

/-- An awaited post leaves the loggers and the console as an immediate one does where the loggers that take it are memory or
console, and so does one to a single logger through references and shared pointers. Whatever the loggers are, a post makes one
call of the method that goes with its delivery for each logger listed, and a farewell one call too; these are the ways in which
the registry posts. -/
theorem awaited_posts_agree :
    (∀ (registry : Registry) record, (∀ handle ∈ registry.globals, registry.IsPlain handle) →
      registry.post .awaited record = registry.post .immediate record) ∧
    (∀ (registry : Registry) record access, registry.IsPlain access.handle →
      registry.finishThrough .awaited record access = registry.finishThrough .immediate record access) ∧
    (∀ (σ : Type) (loggers : Nat → Methods σ) delivery record (listed : List Access) (state : σ),
      Methods.post loggers delivery record listed state =
        (listed.map fun access => (access.handle, MethodCall.submit delivery record)).foldl (Methods.perform loggers) state ∧
      Methods.farewell loggers listed state =
        (listed.map fun access => (access.handle, MethodCall.prepareToDie)).foldl (Methods.perform loggers) state) ∧
    (∀ (registry : Registry) delivery record access,
      registry.post delivery record =
        Methods.post methods delivery record (registry.globals.map fun handle => .shared (.direct handle)) registry ∧
      registry.finishThrough delivery record access = Methods.post methods delivery record [access] registry ∧
      registry.prepareToDie =
        Methods.farewell methods (registry.globals.map fun handle => .shared (.direct handle)) registry ∧
      registry.farewellThrough access = Methods.farewell methods [access] registry) := by
  refine ⟨fun registry record h => ?_, fun registry record access h => ?_, fun σ loggers delivery record listed state => ?_,
    fun registry delivery record access => ?_⟩
  · rw [post_eq, post_eq]
    exact handOver_of_isPlain .awaited record h
  · rw [finishThrough_eq, finishThrough_eq]
    exact finish_of_isPlain .awaited record h
  · exact ⟨Methods.post_eq_foldl_perform loggers delivery record listed state,
      Methods.farewell_eq_foldl_perform loggers listed state⟩
  · exact ⟨registry.post_eq_methods delivery record, registry.finishThrough_eq_methods delivery record access,
      registry.prepareToDie_eq_methods, registry.farewellThrough_eq_methods access⟩

/-- A memory that is listed twice takes an awaited record twice, as it takes an immediate one. -/
theorem awaited_post_to_repeated :
    let registry : Registry := ⟨[.console, .memory ["a"]], [1, 0, 1], {}, ""⟩
    let record : Record := ⟨["b", "c"], .info⟩
    (∀ handle ∈ registry.globals, registry.IsPlain handle) ∧ registry.IsPlain (Access.shared (.borrowed (.direct 1))).handle ∧
      registry.post .awaited record = registry.post .immediate record ∧
      (registry.post .awaited record).loggers = [.console, .memory ["a", "bc", "bc"]] ∧
      registry.finishThrough .awaited record (.shared (.borrowed (.direct 1))) =
        registry.finishThrough .immediate record (.shared (.borrowed (.direct 1))) := by
  intro registry record
  have hall : ∀ logger ∈ registry.loggers, logger.isPlain = true := by decide
  have hplain : ∀ handle, registry.IsPlain handle := fun handle logger h => hall logger (List.mem_of_getElem? h)
  exact ⟨fun handle _ => hplain handle, hplain _, awaited_posts_agree.1 registry record fun handle _ => hplain handle,
    rfl, awaited_posts_agree.2.1 registry record _ (hplain _)⟩

end Registry

end PrivateLog
