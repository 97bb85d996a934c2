import PrivateLog.Proofs.Lock.Visits
import Mathlib.Data.List.Nodup

/-!
# Threads and their guards

The live guards are those of the threads inside, one for each (`System.Placed`). So a writer who is inside is the only
thread inside (`System.Placed.sole_writer`), and a thread that enters knows who else is there.
-/

namespace PrivateLog.Lock.System

variable {T α : Type}

/-- The live guards are those of the threads inside, one for each, and the state of the lock tells them. -/
structure Placed (system : System T α) : Prop where
  sound : system.scene.Sound
  nodup : system.scene.guards.Nodup
  guard_iff : ∀ t mode,
    ⟨t, mode⟩ ∈ system.scene.guards ↔ ∃ visit, (system.threads t).visit? = some visit ∧ visit.mode = mode

/-- At first there are no guards. -/
theorem placed_start (data : α) (visits : T → List (Visit α)) : (start data visits).Placed where
  sound := Scene.sound_initial
  nodup := List.nodup_nil
  guard_iff t mode := by simp [start, Scene.initial, Thread.visit?]

variable {system system' : System T α} {event : Event T α} {t other : T} {visit visit' : Visit α}

/-- A step within a visit or outside keeps the guards where they are. -/
theorem Placed.of_visit_eq (h : system.Placed) (hs : system'.scene = system.scene)
    (hv : ∀ t, (system'.threads t).visit? = (system.threads t).visit?) : system'.Placed where
  sound := hs ▸ h.sound
  nodup := hs ▸ h.nodup
  guard_iff t mode := by rw [hs, hv, h.guard_iff]

/-- A thread inside holds a guard. -/
theorem Placed.guard_mem (h : system.Placed) (hv : (system.threads t).visit? = some visit) :
    ⟨t, visit.mode⟩ ∈ system.scene.guards :=
  (h.guard_iff t visit.mode).2 ⟨visit, hv, rfl⟩

/-- Nobody else is inside with a writer. -/
theorem Placed.sole_writer (h : system.Placed) (hv : (system.threads t).visit? = some visit)
    (hm : visit.mode = .exclusive) (hv' : (system.threads other).visit? = some visit') : other = t := by
  have hother := h.guard_mem hv'
  rw [h.sound.guards_eq_singleton (h.guard_mem hv) hm, List.mem_singleton] at hother
  exact (Guard.mk.inj hother).1

/-- A writer finds nobody inside. -/
theorem Placed.visit_eq_none_of_enter_exclusive (h : system.Placed) {state : Nat}
    (ha : attempt .exclusive system.scene.state = .entered state) (t : T) : (system.threads t).visit? = none := by
  obtain rfl := eq_writing_of_tryWrite ha
  have hguards := h.sound.state_eq_free_iff.1 (tryWrite_eq_entered_iff.1 ha)
  cases hv : (system.threads t).visit? with
  | none => rfl
  | some visit =>
    have hmem := h.guard_mem hv
    rw [hguards] at hmem
    cases hmem

/-- A reader finds no writer inside. -/
theorem Placed.shared_of_enter_shared (h : system.Placed) {state : Nat}
    (ha : attempt .shared system.scene.state = .entered state) : ∀ guard ∈ system.scene.guards, guard.mode = .shared := by
  intro guard hg
  cases hm : guard.mode with
  | shared => rfl
  | exclusive =>
    have hstate := h.sound.state_eq_writing_iff.2 ⟨guard, hg, hm⟩
    have hroom := (tryRead_eq_entered_iff.1 ha).1
    unfold writing at hstate
    omega

/-- With a reader there are only readers inside. -/
theorem Placed.shared_of_reader (h : system.Placed) (hv : (system.threads t).visit? = some visit)
    (hm : visit.mode = .shared) : ∀ guard ∈ system.scene.guards, guard.mode = .shared := by
  intro guard hg
  cases hmode : guard.mode with
  | shared => rfl
  | exclusive =>
    obtain ⟨writer, hwriter, hwm⟩ := (h.guard_iff guard.holder guard.mode).1 hg
    have hsame := h.sole_writer hwriter (hwm.trans hmode) hv
    rw [← hsame, hv] at hwriter
    cases hwriter
    rw [hm, hmode] at hwm
    cases hwm

/-- When all threads are through, nobody holds a guard. -/
theorem Placed.guards_eq_nil (h : system.Placed) (ht : ∀ t, system.threads t = .outside []) : system.scene.guards = [] := by
  refine List.eq_nil_iff_forall_not_mem.2 fun guard hg => ?_
  obtain ⟨visit, hv, -⟩ := (h.guard_iff guard.holder guard.mode).1 hg
  rw [ht] at hv
  cases hv

variable [DecidableEq T]

/-- The thread that goes on is at its new place. -/
theorem threads_put (thread : Thread α) : (system.put t thread).threads t = thread :=
  Function.update_self ..

/-- The others stay where they are. -/
theorem threads_put_of_ne (thread : Thread α) (h : other ≠ t) :
    (system.put t thread).threads other = system.threads other :=
  Function.update_of_ne h ..

/-- A step leaves the other threads where they are. -/
theorem Step.threads_of_ne (hs : Step system event system') (h : event.thread ≠ t) :
    system'.threads t = system.threads t := by
  cases hs with
  | waits => rfl
  | enters | fails | loads | stores | leaves => exact threads_put_of_ne _ (Ne.symm h)

/-- A thread that goes on within its visit, or outside, changes no visit. -/
theorem visit_put {thread : Thread α} (h : thread.visit? = (system.threads t).visit?) (other : T) :
    ((system.put t thread).threads other).visit? = (system.threads other).visit? := by
  by_cases ho : other = t
  · rw [ho, threads_put, h]
  · rw [threads_put_of_ne _ ho]

/-- A thread inside can go on. -/
theorem exists_step_of_inside {rest : Program α visit.mode} {todo : List (Visit α)}
    (hthread : system.threads t = .inside visit rest todo) :
    ∃ event after, Step system event after ∧ event.advances = true := by
  obtain ⟨mode, program⟩ := visit
  cases rest with
  | done => exact ⟨_, _, .leaves hthread, rfl⟩
  | load next => exact ⟨_, _, .loads hthread, rfl⟩
  | store value next => exact ⟨_, _, .stores hthread, rfl⟩

/-- When a thread has visits to make, it can enter, or somebody who is inside can go on. -/
theorem Placed.exists_step (h : system.Placed) {todo : List (Visit α)}
    (hthread : system.threads t = .outside (visit :: todo)) :
    ∃ event after, Step system event after ∧ event.advances = true := by
  cases hguards : system.scene.guards with
  | nil =>
    have hfree := h.sound.state_eq_free_iff.2 hguards
    have henter : ∃ state, attempt visit.mode system.scene.state = .entered state := by
      rw [hfree]
      cases visit.mode with
      | shared => exact ⟨_, rfl⟩
      | exclusive => exact ⟨_, rfl⟩
    obtain ⟨state, hstate⟩ := henter
    exact ⟨_, _, .enters hthread hstate, rfl⟩
  | cons guard guards =>
    obtain ⟨visit', hv, -⟩ := (h.guard_iff guard.holder guard.mode).1 (by rw [hguards]; exact List.mem_cons_self)
    cases hholder : system.threads guard.holder with
    | inside visit rest todo => exact exists_step_of_inside hholder
    | outside | failed =>
      rw [hholder] at hv
      cases hv

/-- Every step keeps the guards where they belong. -/
theorem Placed.step (h : system.Placed) (hs : Step system event system') : system'.Placed := by
  cases hs with
  | @enters t visit todo state hthread ha =>
    have hnone : ∀ mode, (⟨t, mode⟩ : Guard T) ∉ system.scene.guards := by
      intro mode hm
      obtain ⟨visit, hv, -⟩ := (h.guard_iff t mode).1 hm
      rw [hthread] at hv
      cases hv
    refine ⟨h.sound.enter ha, List.nodup_cons.2 ⟨hnone visit.mode, h.nodup⟩, fun other mode => ?_⟩
    by_cases ho : other = t
    · subst ho
      simp [Scene.enter, hnone, put, Thread.visit?, eq_comm]
    · simp [Scene.enter, put, ho, h.guard_iff]
  | waits => exact h
  | @fails t visit todo hthread ha =>
    exact h.of_visit_eq rfl (visit_put (by rw [hthread]; rfl))
  | @loads t visit next todo hthread =>
    exact h.of_visit_eq rfl (visit_put (by rw [hthread]; rfl))
  | @stores t program next value todo hthread =>
    exact h.of_visit_eq rfl (visit_put (by rw [hthread]; rfl))
  | @leaves t visit todo hthread =>
    have hguard : (⟨t, visit.mode⟩ : Guard T) ∈ system.scene.guards := h.guard_mem (by rw [hthread]; rfl)
    refine ⟨h.sound.drop hguard, h.nodup.erase _, fun other mode => ?_⟩
    by_cases ho : other = t
    · subst ho
      have hnone : (⟨other, mode⟩ : Guard T) ∉ (system.scene.guards.erase ⟨other, visit.mode⟩) := by
        intro hm
        obtain ⟨hne, hm⟩ := h.nodup.mem_erase_iff.1 hm
        obtain ⟨visit', hv, rfl⟩ := (h.guard_iff other mode).1 hm
        rw [hthread] at hv
        cases hv
        exact hne rfl
      simp [Scene.drop, hnone, put, Thread.visit?]
    · have hne : (⟨other, mode⟩ : Guard T) ≠ ⟨t, visit.mode⟩ := fun he => ho (Guard.mk.inj he).1
      simp [Scene.drop, put, Function.update_of_ne ho, List.mem_erase_of_ne hne, h.guard_iff]

/-- In every run the guards are where they belong. -/
theorem Run.placed {data : α} {visits : T → List (Visit α)} {events : List (Event T α)}
    (h : Run (start data visits) events system) : system.Placed := by
  induction h with
  | nil => exact placed_start data visits
  | snoc _ hs ih => exact ih.step hs

end PrivateLog.Lock.System
