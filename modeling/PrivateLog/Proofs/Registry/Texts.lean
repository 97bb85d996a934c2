import PrivateLog.Call
import Mathlib.Data.List.Count

/-!
# The texts of all loggers

What the operations of a registry do to the texts that its loggers keep, one equation for each, for every logger at once: a
record adds its text to the logger it is handed to, as often as it is handed over, and to no other. References and shared
pointers in front of a logger make no difference. None of the operations that hand records over touches the settings, the
global list or the number of loggers.
-/

namespace PrivateLog

/-- The handle of the logger that lies behind references and shared pointers. -/
def Access.handle : Access → Nat
  | .direct handle => handle
  | .borrowed access => access.handle
  | .shared access => access.handle

namespace Logger

variable (logger : Logger)

/-- A record adds its text, if the logger keeps texts. -/
theorem lines?_finish_eq_map (delivery : Delivery) (record : Record) :
    (logger.finish delivery record).1.lines? = logger.lines?.map (· ++ [record.text]) := by
  cases logger <;> rfl

/-- Preparing for the end of the program changes no texts. -/
theorem lines?_prepareToDie : logger.prepareToDie.lines? = logger.lines? := by
  cases logger <;> rfl

/-- Clearing leaves no texts. -/
theorem lines?_clear_eq_map : logger.clear.lines? = logger.lines?.map fun _ => [] := by
  cases logger <;> rfl

end Logger

namespace Registry

/-- The texts that the logger of a handle keeps, if there is one and it keeps any. -/
def lines? (registry : Registry) (handle : Nat) : Option (List String) :=
  (registry.logger? handle).bind Logger.lines?

variable (registry : Registry) (delivery : Delivery) (record : Record) (handle other : Nat)

/-- Behind references and shared pointers stands one logger, and that takes the record. -/
theorem finishThrough_eq (access : Access) :
    registry.finishThrough delivery record access = registry.finish delivery record access.handle := by
  induction access with
  | direct handle => rfl
  | borrowed access ih => exact ih
  | shared access ih => exact ih

/-- It is that one logger, too, that is told of the end of the program. -/
theorem farewellThrough_eq (access : Access) : registry.farewellThrough access = registry.farewell access.handle := by
  induction access with
  | direct handle => rfl
  | borrowed access ih => exact ih
  | shared access ih => exact ih

/-- A logger in the place of another: the texts at that place are its own. -/
theorem lines?_replace {logger : Logger} (h : registry.logger? handle = some logger) (logger' : Logger) :
    (registry.replace handle logger').lines? other =
      if other = handle then logger'.lines? else registry.lines? other := by
  have hlt : handle < registry.loggers.length := (List.getElem?_eq_some_iff.1 h).1
  by_cases ho : other = handle
  · subst ho
    simp [lines?, logger?, replace, hlt]
  · simp [lines?, logger?, replace, ho, List.getElem?_set_ne (Ne.symm ho)]

/-- A record adds its text to the logger that it is handed to, and to no other. -/
theorem lines?_finish : (registry.finish delivery record handle).lines? other =
    (registry.lines? other).map (· ++ if other = handle then [record.text] else []) := by
  unfold finish
  split
  · rename_i logger hlogger
    refine (registry.lines?_replace handle other hlogger (logger.finish delivery record).1).trans ?_
    by_cases ho : other = handle
    · subst ho
      simp [lines?, hlogger, Logger.lines?_finish_eq_map]
    · simp [ho]
  · rename_i hnone
    by_cases ho : other = handle
    · subst ho
      simp [lines?, hnone]
    · simp [ho]

/-- Handing a record over leaves the settings as they are. -/
theorem settings_finish : (registry.finish delivery record handle).settings = registry.settings := by
  unfold finish
  split <;> rfl

/-- Handing a record over leaves as many loggers as there were. -/
theorem length_finish : (registry.finish delivery record handle).loggers.length = registry.loggers.length := by
  unfold finish
  split
  · exact List.length_set
  · rfl

/-- Telling a logger of the end of the program changes no texts. -/
theorem lines?_farewell : (registry.farewell handle).lines? other = registry.lines? other := by
  unfold farewell
  split
  · rename_i logger hlogger
    rw [lines?_replace registry handle other hlogger]
    by_cases ho : other = handle
    · subst ho
      simp [lines?, hlogger, Logger.lines?_prepareToDie]
    · simp [ho]
  · rfl

/-! ## Several handles -/

/-- Hands a record to the loggers of some handles, one after another. -/
def handOver (handles : List Nat) : Registry :=
  handles.foldl (fun registry handle => registry.finish delivery record handle) registry

/-- A record is posted to the global loggers. -/
theorem post_eq : registry.post delivery record = registry.handOver delivery record registry.globals := by
  simp only [post, finishThrough_eq]
  rfl

variable (handles : List Nat)

/-- A record that is handed over adds its text to each logger as often as that is among those it is handed to. -/
theorem lines?_handOver : (registry.handOver delivery record handles).lines? other =
    (registry.lines? other).map (· ++ List.replicate (handles.count other) record.text) := by
  induction handles generalizing registry with
  | nil => simp [handOver]
  | cons handle handles ih =>
    refine (ih (registry.finish delivery record handle)).trans ?_
    rw [lines?_finish, Option.map_map]
    by_cases ho : other = handle
    · subst ho
      simp [Function.comp_def, List.replicate_succ]
    · simp [Function.comp_def, ho, Ne.symm ho]

/-- Handing a record over leaves the global list as it is. -/
theorem globals_handOver : (registry.handOver delivery record handles).globals = registry.globals := by
  induction handles generalizing registry with
  | nil => rfl
  | cons handle handles ih => exact (ih _).trans (registry.globals_finish delivery record handle)

/-- Handing a record over leaves the settings as they are. -/
theorem settings_handOver : (registry.handOver delivery record handles).settings = registry.settings := by
  induction handles generalizing registry with
  | nil => rfl
  | cons handle handles ih => exact (ih _).trans (registry.settings_finish delivery record handle)

/-- Handing a record over leaves as many loggers as there were. -/
theorem length_handOver :
    (registry.handOver delivery record handles).loggers.length = registry.loggers.length := by
  induction handles generalizing registry with
  | nil => rfl
  | cons handle handles ih => exact (ih _).trans (registry.length_finish delivery record handle)

/-- The handles of the loggers that take a record: the one it is addressed to, or the global ones. -/
def addressees (registry : Registry) : Option Access → List Nat
  | some access => [access.handle]
  | none => registry.globals

/-- A record is submitted to the logger it is addressed to, or to the global ones. -/
theorem submit_eq (access : Option Access) :
    registry.submit delivery record access = registry.handOver delivery record (registry.addressees access) := by
  cases access with
  | none => exact registry.post_eq delivery record
  | some access => exact registry.finishThrough_eq delivery record access

/-! ## The end of the program -/

/-- Registries that differ in nothing but what the console shows and in how often their loggers were called. -/
structure Agree (registry registry' : Registry) : Prop where
  settings_eq : registry'.settings = registry.settings
  globals_eq : registry'.globals = registry.globals
  length_eq : registry'.loggers.length = registry.loggers.length
  lines_eq : ∀ handle, registry'.lines? handle = registry.lines? handle

/-- A registry agrees with itself. -/
theorem Agree.refl : registry.Agree registry := ⟨rfl, rfl, rfl, fun _ => rfl⟩

/-- Agreement goes on from one registry to the next. -/
theorem Agree.trans {registry registry' registry'' : Registry} (h : registry.Agree registry')
    (h' : registry'.Agree registry'') : registry.Agree registry'' :=
  ⟨h'.settings_eq.trans h.settings_eq, h'.globals_eq.trans h.globals_eq, h'.length_eq.trans h.length_eq,
    fun handle => (h'.lines_eq handle).trans (h.lines_eq handle)⟩

/-- Telling a logger of the end of the program changes nothing else. -/
theorem agree_farewell : registry.Agree (registry.farewell handle) := by
  refine ⟨?_, ?_, ?_, registry.lines?_farewell handle⟩ <;> unfold farewell <;> split
  all_goals first | rfl | exact List.length_set

/-- Neither does telling all global loggers. -/
theorem agree_prepareToDie : registry.Agree registry.prepareToDie := by
  have tell : ∀ (handles : List Nat) (registry : Registry), registry.Agree
      (handles.foldl (fun registry handle => registry.farewellThrough (.shared (.direct handle))) registry) := by
    intro handles
    induction handles with
    | nil => exact Agree.refl
    | cons handle handles ih =>
      intro registry
      have htold : registry.Agree (registry.farewellThrough (.shared (.direct handle))) := by
        rw [farewellThrough_eq]
        exact registry.agree_farewell _
      exact htold.trans (ih _)
  exact tell registry.globals registry

end Registry

end PrivateLog
