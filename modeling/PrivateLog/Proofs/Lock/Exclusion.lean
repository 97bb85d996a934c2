import PrivateLog.Lock.Basic
import Mathlib.Data.List.Count
import Mathlib.Logic.Relation

/-!
# Who is inside

A scene is the state of a lock together with the guards that are live. Any thread may at any time try to enter, as a
reader or as a writer, and any live guard may be dropped; each of these is one atomic step (`Scene.Step`). In every scene
that a new lock comes to (`Scene.Reachable`) the readers are counted and alone, or one writer is alone (`Scene.Sound`), and
from this follows all that the state has to say about the guards (`Scene.orderly_of_reachable`).
-/

namespace PrivateLog.Lock

/-- How a guard lets its holder in: among other readers, or alone. -/
inductive Mode where
  | shared
  | exclusive
  deriving DecidableEq, Repr

/-- A mode is one of two. -/
theorem Mode.eq_shared_or (mode : Mode) : mode = .shared ∨ mode = .exclusive := by
  cases mode
  · exact Or.inl rfl
  · exact Or.inr rfl

/-- An attempt to enter. -/
def attempt : Mode → Nat → Attempt
  | .shared => tryRead
  | .exclusive => tryWrite

/-- The state after a guard is dropped. -/
def leave : Mode → Nat → Nat
  | .shared => leaveRead
  | .exclusive => fun _ => leaveWrite

/-- A live guard, and the thread that holds it. -/
structure Guard (T : Type) where
  holder : T
  mode : Mode
  deriving DecidableEq, Repr

/-- The state of a lock, and the guards that are live, latest first. -/
structure Scene (T : Type) where
  state : Nat
  guards : List (Guard T)
  deriving DecidableEq, Repr

namespace Scene

variable {T : Type} {scene scene' : Scene T}

/-- A new lock. -/
def initial : Scene T := ⟨free, []⟩

/-- The number of live guards of a mode. -/
def count (mode : Mode) (scene : Scene T) : Nat :=
  scene.guards.countP (·.mode = mode)

/-- One more guard is live, and the state is a new one. -/
def enter (scene : Scene T) (guard : Guard T) (state : Nat) : Scene T :=
  ⟨state, guard :: scene.guards⟩

/-- Readers are inside, at most 254, and the state is their number; or one writer is inside alone, and the state says so.
-/
inductive Sound (scene : Scene T) : Prop where
  | readers : scene.count .exclusive = 0 → scene.state = scene.count .shared → scene.count .shared ≤ 254 → Sound scene
  | writer : scene.count .exclusive = 1 → scene.count .shared = 0 → scene.state = writing → Sound scene

/-! ## Counting guards -/

/-- A guard more counts for its mode. -/
theorem count_enter (mode : Mode) (guard : Guard T) (state : Nat) :
    (scene.enter guard state).count mode = scene.count mode + if guard.mode = mode then 1 else 0 := by
  simp [count, enter, List.countP_cons]

/-- A live guard counts for its mode. -/
theorem count_pos {guard : Guard T} (h : guard ∈ scene.guards) : 0 < scene.count guard.mode :=
  List.countP_pos_iff.2 ⟨guard, h, decide_eq_true rfl⟩

/-- Every guard counts for one of the two modes. -/
theorem count_add_count : scene.count .shared + scene.count .exclusive = scene.guards.length := by
  rw [List.length_eq_countP_add_countP (fun guard => guard.mode = .shared)]
  congr 1
  refine List.countP_congr fun guard _ => ?_
  cases guard.mode <;> simp

/-- A mode counts for nothing exactly if no guard has it. -/
theorem count_eq_zero_iff {mode : Mode} : scene.count mode = 0 ↔ ∀ guard ∈ scene.guards, guard.mode ≠ mode := by
  simp [count, List.countP_eq_zero]

/-! ## What the state says -/

/-- A writer is inside exactly if the state says so. -/
theorem Sound.state_eq_writing_iff (h : scene.Sound) :
    scene.state = writing ↔ ∃ guard ∈ scene.guards, guard.mode = .exclusive := by
  cases h with
  | readers hw hs hr =>
    refine iff_of_false ?_ ?_
    · unfold writing
      omega
    · rintro ⟨guard, hg, hm⟩
      exact count_eq_zero_iff.1 hw guard hg hm
  | writer hw _ hs =>
    refine iff_of_true hs ?_
    obtain ⟨guard, hg, hm⟩ := List.countP_pos_iff.1 (Nat.lt_of_lt_of_eq Nat.zero_lt_one hw.symm)
    exact ⟨guard, hg, of_decide_eq_true hm⟩

/-- The state fits the byte. -/
theorem Sound.state_le_writing (h : scene.Sound) : scene.state ≤ writing := by
  cases h with
  | readers _ hs hr =>
    unfold writing
    omega
  | writer _ _ hs => exact Nat.le_of_eq hs

/-- A writer is inside alone. -/
theorem Sound.guards_eq_singleton (h : scene.Sound) {guard : Guard T} (hg : guard ∈ scene.guards)
    (hm : guard.mode = .exclusive) : scene.guards = [guard] := by
  have hpos := count_pos hg
  rw [hm] at hpos
  cases h with
  | readers hw _ _ => omega
  | writer hw hr _ =>
    have hlength : scene.count .shared + scene.count .exclusive = scene.guards.length := count_add_count
    rw [hw, hr] at hlength
    obtain ⟨only, honly⟩ := List.length_eq_one_iff.1 hlength.symm
    rw [honly, List.mem_singleton] at hg
    rw [honly, hg]

/-- The lock is free exactly if no guard is live. -/
theorem Sound.state_eq_free_iff (h : scene.Sound) : scene.state = free ↔ scene.guards = [] := by
  rw [← List.length_eq_zero_iff, ← count_add_count]
  cases h with
  | readers hw hs _ =>
    unfold free
    omega
  | writer hw _ hs =>
    unfold free
    unfold writing at hs
    omega

/-! ## Entering -/

/-- In a new lock nobody is inside. -/
theorem sound_initial : (initial : Scene T).Sound :=
  .readers rfl rfl (Nat.zero_le _)

/-- A thread that enters finds the lock free, or is a reader among others for whom there is room. -/
theorem Sound.enter (h : scene.Sound) {guard : Guard T} {state : Nat}
    (ha : attempt guard.mode scene.state = .entered state) : (scene.enter guard state).Sound := by
  cases hm : guard.mode with
  | shared =>
    rw [hm] at ha
    obtain ⟨hroom, rfl⟩ := tryRead_eq_entered_iff.1 ha
    cases h with
    | readers hw hs _ =>
      refine .readers ?_ ?_ ?_ <;> rw [count_enter] <;> simp only [hm]
      · simpa using hw
      · simpa [Scene.enter] using hs
      · simp only [if_true]
        omega
    | writer _ _ hs =>
      unfold writing at hs
      omega
  | exclusive =>
    rw [hm] at ha
    obtain rfl := eq_writing_of_tryWrite ha
    have hfree := tryWrite_eq_entered_iff.1 ha
    cases h with
    | readers hw hs _ =>
      rw [hfree, free] at hs
      refine .writer ?_ ?_ rfl <;> rw [count_enter] <;> simp only [hm]
      · simpa using hw
      · simpa using hs.symm
    | writer _ _ hs =>
      rw [hfree] at hs
      cases hs

/-! ## Steps -/

variable [DecidableEq T]

/-- A guard is dropped. -/
def drop (scene : Scene T) (guard : Guard T) : Scene T :=
  ⟨leave guard.mode scene.state, scene.guards.erase guard⟩

/-- One atomic step of any thread. An attempt that does not succeed changes nothing, whether it is refused or overflows;
that of a writer may fail for no reason. -/
inductive Step (scene : Scene T) : Scene T → Prop where
  | enters {guard : Guard T} {state : Nat} : attempt guard.mode scene.state = .entered state →
      Step scene (scene.enter guard state)
  | fails {mode : Mode} : attempt mode scene.state = .refused ∨ attempt mode scene.state = .overflow ∨
      mode = .exclusive → Step scene scene
  | leaves {guard : Guard T} : guard ∈ scene.guards → Step scene (scene.drop guard)

/-- The scenes that the steps of any threads lead to from a new lock. -/
def Reachable (scene : Scene T) : Prop :=
  Relation.ReflTransGen Step initial scene

/-- A guard that is dropped no longer counts for its mode. -/
theorem count_drop {guard : Guard T} (h : guard ∈ scene.guards) (mode : Mode) :
    (scene.drop guard).count mode = scene.count mode - if guard.mode = mode then 1 else 0 := by
  simp [count, drop, List.countP_erase, h]

/-- A guard that is dropped leaves one reader less, or nobody. -/
theorem Sound.drop (h : scene.Sound) {guard : Guard T} (hg : guard ∈ scene.guards) : (scene.drop guard).Sound := by
  have hpos := count_pos hg
  cases hm : guard.mode with
  | shared =>
    rw [hm] at hpos
    cases h with
    | readers hw hs hr =>
      have hstate : (scene.drop guard).state = leaveRead scene.state := by simp [Scene.drop, leave, hm]
      obtain ⟨readers, hreaders⟩ : ∃ readers, scene.count .shared = readers + 1 := ⟨_, (Nat.succ_pred_eq_of_pos hpos).symm⟩
      have hleave : leaveRead (readers + 1) = readers := leaveRead_succ (by unfold writing; omega)
      refine .readers ?_ ?_ ?_
      · simpa [count_drop hg, hm] using hw
      · rw [hstate, hs, hreaders, hleave, count_drop hg, hm, hreaders]
        simp
      · rw [count_drop hg]
        omega
    | writer _ hr _ => omega
  | exclusive =>
    rw [hm] at hpos
    cases h with
    | readers hw _ _ => omega
    | writer hw hr _ =>
      have hstate : (scene.drop guard).state = free := by simp [Scene.drop, leave, leaveWrite, hm]
      have hshared : (scene.drop guard).count .shared = 0 := by simp [count_drop hg, hm, hr]
      refine .readers ?_ (hstate.trans hshared.symm) (by omega)
      simp [count_drop hg, hm, hw]

/-- Every step keeps the scene sound. -/
theorem Sound.step (h : scene.Sound) (hs : Step scene scene') : scene'.Sound := by
  cases hs with
  | enters ha => exact h.enter ha
  | fails => exact h
  | leaves hg => exact h.drop hg

/-- Every scene that can be reached is sound. -/
theorem Reachable.sound (h : scene.Reachable) : scene.Sound := by
  induction h with
  | refl => exact sound_initial
  | tail _ hs ih => exact ih.step hs

/-! ## Every scene that can be reached -/

/-- The state tells the guards that are live: it is the number of the readers, never more than 254, or that of a writer who is
alone. A reader that leaves is counted, so its subtraction stays in the byte; a writer that leaves leaves nobody behind. -/
structure Orderly (scene : Scene T) : Prop where
  counted : (scene.count .exclusive = 0 ∧ scene.state = scene.count .shared ∧ scene.count .shared ≤ 254) ∨
    (scene.count .exclusive = 1 ∧ scene.count .shared = 0 ∧ scene.state = writing)
  reader_leaves : ∀ guard ∈ scene.guards, guard.mode = .shared →
    0 < scene.state ∧ (scene.drop guard).state + 1 = scene.state
  writing_iff : scene.state = writing ↔ ∃ guard ∈ scene.guards, guard.mode = .exclusive
  writer_leaves : ∀ guard ∈ scene.guards, guard.mode = .exclusive → (scene.drop guard).guards = []
  free_iff : scene.state = free ↔ scene.guards = []

/-- Whatever the threads do, the state tells the guards that are live. -/
theorem orderly_of_reachable (h : scene.Reachable) : scene.Orderly := by
  have hsound := h.sound
  refine ⟨?_, ?_, hsound.state_eq_writing_iff, ?_, hsound.state_eq_free_iff⟩
  · cases hsound with
    | readers hw hs hr => exact Or.inl ⟨hw, hs, hr⟩
    | writer hw hr hs => exact Or.inr ⟨hw, hr, hs⟩
  · intro guard hg hm
    have hpos := count_pos hg
    rw [hm] at hpos
    have hdrop : (scene.drop guard).state = leaveRead scene.state := by simp [drop, leave, hm]
    cases hsound with
    | readers _ hs hr =>
      obtain ⟨readers, hreaders⟩ : ∃ readers, scene.state = readers + 1 := ⟨scene.state - 1, by omega⟩
      rw [hdrop, hreaders, leaveRead_succ (by unfold writing; omega)]
      exact ⟨Nat.succ_pos readers, rfl⟩
    | writer _ hr _ => omega
  · intro guard hg hm
    simp [drop, hsound.guards_eq_singleton hg hm]

/-- Readers can fill the lock. -/
theorem reachable_replicate {readers : Nat} (h : readers ≤ 254) (holder : T) :
    (⟨readers, List.replicate readers ⟨holder, .shared⟩⟩ : Scene T).Reachable := by
  induction readers with
  | zero => exact Relation.ReflTransGen.refl
  | succ readers ih =>
    have ha : attempt .shared readers = .entered (readers + 1) := tryRead_eq_entered_iff.2 ⟨by omega, rfl⟩
    exact (ih (by omega)).tail (Step.enters ha)

/-- A writer can enter a new lock. -/
theorem reachable_writer (holder : T) : (⟨writing, [⟨holder, .exclusive⟩]⟩ : Scene T).Reachable :=
  Relation.ReflTransGen.single (.enters rfl)

/-- With 254 readers the byte is one below that of a writer. -/
theorem orderly_of_reachable_full :
    (⟨254, List.replicate 254 ⟨(), .shared⟩⟩ : Scene Unit).Reachable ∧
      (⟨254, List.replicate 254 ⟨(), .shared⟩⟩ : Scene Unit).Orderly := by
  have h := reachable_replicate (Nat.le_refl 254) ()
  exact ⟨h, orderly_of_reachable h⟩

end Scene

end PrivateLog.Lock
