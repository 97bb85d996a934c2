import PrivateLog.Proofs.Lock.Places
import PrivateLog.Registry

/-!
# Readers that find a writer inside

A reader computes the next number of readers before it looks whether there is room. While other readers are inside, this is
harmless: even the greatest number of them has a successor in the byte. While a writer is inside, it has none, and the
attempt overflows where it should be refused (`Scene.attempt_of_reader`). So a program may fail when it looks at the global
loggers at the wrong moment (`System.Run.fails_iff`).
-/

namespace PrivateLog.Lock

/-- What comes of an attempt of a reader, whatever the threads have done before: it overflows exactly while a writer is inside.
Otherwise it is refused by 254 readers, and makes one more of fewer. -/
theorem Scene.attempt_of_reader {T : Type} [DecidableEq T] {scene : Scene T} (h : scene.Reachable) :
    (tryRead scene.state = .overflow ↔ ∃ guard ∈ scene.guards, guard.mode = .exclusive) ∧
      (tryRead scene.state = .refused ↔ scene.count .shared = 254) ∧
      ∀ next, tryRead scene.state = .entered next ↔
        scene.count .exclusive = 0 ∧ scene.count .shared < 254 ∧ next = scene.count .shared + 1 := by
  rw [← h.sound.state_eq_writing_iff, tryRead_eq_overflow_iff, tryRead_eq_refused_iff]
  simp only [tryRead_eq_entered_iff]
  unfold writing
  cases h.sound with
  | readers hw hs hr =>
    refine ⟨by omega, by omega, fun next => by omega⟩
  | writer hw hr hs =>
    unfold writing at hs
    refine ⟨by omega, by omega, fun next => by omega⟩

/-- A reader and a writer: the writer came first. -/
theorem Scene.attempt_of_reader_beside_writer :
    (⟨writing, [⟨false, .exclusive⟩]⟩ : Scene Bool).Reachable ∧ tryRead writing = .overflow := by
  have h := Scene.reachable_writer false
  exact ⟨h, (Scene.attempt_of_reader h).1.2 ⟨_, List.mem_cons_self, rfl⟩⟩

namespace System

/-- Adding a global logger is the visit of a writer. -/
theorem run_addGlobal (registry : Registry) (handle : Nat) :
    (Visit.modify (· ++ [handle])).program.run registry.globals = (registry.addGlobal handle).globals := rfl

/-- So is replacing the global list. -/
theorem run_setGlobals (registry : Registry) (handles : List Nat) :
    (Visit.modify fun _ => handles).program.run registry.globals = (registry.setGlobals handles).globals := rfl

/-- In a run, a thread that is about to enter as a reader may fail exactly while another is inside as a writer. -/
theorem Run.fails_iff {T α : Type} [DecidableEq T] {data : α} {visits : T → List (Visit α)} {events : List (Event T α)}
    {system : System T α} (h : Run (start data visits) events system) {t : T} {visit : Visit α} {todo : List (Visit α)}
    (ht : system.threads t = .outside (visit :: todo)) (hm : visit.mode = .shared) :
    (∃ after, Step system (.failed t) after) ↔
      ∃ other visit, (system.threads other).visit? = some visit ∧ visit.mode = .exclusive := by
  have hoverflow : attempt visit.mode system.scene.state = .overflow ↔
      ∃ guard ∈ system.scene.guards, guard.mode = .exclusive := by
    rw [hm, ← h.placed.sound.state_eq_writing_iff]
    refine tryRead_eq_overflow_iff.trans ?_
    have hle := h.placed.sound.state_le_writing
    omega
  constructor
  · rintro ⟨after, hs⟩
    cases hs with
    | fails hthread ha =>
      rw [ht] at hthread
      cases hthread
      obtain ⟨guard, hg, hguard⟩ := hoverflow.1 ha
      obtain ⟨visit', hv, hmode⟩ := (h.placed.guard_iff guard.holder guard.mode).1 hg
      exact ⟨guard.holder, visit', hv, hmode.trans hguard⟩
  · rintro ⟨other, visit', hv, hmode⟩
    exact ⟨_, .fails ht (hoverflow.2 ⟨_, h.placed.guard_mem hv, hmode⟩)⟩

/-- While one thread adds a global logger, another fails when it looks at the global list. -/
theorem reader_fails_beside_writer :
    (∃ scene : Scene Bool, scene.Reachable ∧ tryRead scene.state = .overflow) ∧
      ∃ events system,
        (start Registry.initial.globals fun
          | false => [Visit.modify (· ++ [1])]
          | true => [Visit.look]).Run events system ∧ system.threads true = .failed [Visit.look] := by
  refine ⟨⟨_, Scene.reachable_writer false, rfl⟩, ?_⟩
  have hentered := (Run.nil : Run (start Registry.initial.globals fun
      | false => [Visit.modify (· ++ [1])]
      | true => [Visit.look]) _ _).snoc (.enters (t := false) rfl rfl)
  exact ⟨_, _, hentered.snoc (.fails (t := true) rfl rfl), rfl⟩

end System

end PrivateLog.Lock
