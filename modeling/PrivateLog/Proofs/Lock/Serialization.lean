import PrivateLog.Lock.Exercise
import PrivateLog.Proofs.Lock.Tracking
import Mathlib.Algebra.BigOperators.Group.Finset.Basic
import Mathlib.Algebra.BigOperators.Fin

/-!
# Visits one after another

However the steps of the threads are mixed, a run is as good as the visits of its writers made one after another, in the
order in which they entered (`System.Serialized`, `System.run_serialized`). No visit is left out, and none is made twice. So
the threads of an exercise, which run one after another there, leave what they leave in any other order (`Bench.data_threads`).
-/

namespace PrivateLog.Lock

/-! ## The visits that the threads begin -/

section

variable {T α : Type} [DecidableEq T]

/-- Every writer who entered began a visit. -/
theorem exists_mem_begun {events : List (Event T α)} {visit : Visit α} (h : visit ∈ acquired events) :
    ∃ t, visit ∈ begun t events := by
  induction events with
  | nil => cases h
  | cons event events ih =>
    have hrest : visit ∈ acquired events → ∃ t, visit ∈ begun t (event :: events) := by
      intro hm
      obtain ⟨t, ht⟩ := ih hm
      refine ⟨t, ?_⟩
      rw [begun, List.filterMap_cons]
      split
      · exact ht
      · exact List.mem_cons_of_mem _ ht
    cases event with
    | entered t visit' =>
      rw [acquired] at h
      split at h
      · rcases List.mem_cons.1 h with rfl | h
        · exact ⟨t, by simp [begun, Event.begun?]⟩
        · exact hrest h
      · exact hrest h
    | waited | failed | loaded | stored | left => exact hrest h

/-- The writers who entered are those among the visits of all threads. -/
theorem length_acquired [Fintype T] (events : List (Event T α)) :
    (acquired events).length = ∑ t, (begun t events).countP (·.mode = .exclusive) := by
  induction events with
  | nil => simp [acquired, begun]
  | cons event events ih =>
    cases event with
    | entered t visit =>
      have hbegun : ∀ other, (begun other (.entered t visit :: events)).countP (·.mode = .exclusive) =
          (if other = t then (if visit.mode = .exclusive then 1 else 0) else 0) +
            (begun other events).countP (·.mode = .exclusive) := by
        intro other
        by_cases ho : other = t
        · subst ho
          by_cases hm : visit.mode = .exclusive <;>
            simp [begun, Event.begun?, hm, Nat.add_comm]
        · simp [begun, Event.begun?, ho, Ne.symm ho]
      simp only [hbegun, Finset.sum_add_distrib, Finset.sum_ite_eq', Finset.mem_univ, if_true, ← ih]
      by_cases hm : visit.mode = .exclusive <;> simp [acquired, hm, Nat.add_comm]
    | waited | failed | loaded | stored | left => exact ih

end

namespace System

variable {T α : Type} [DecidableEq T] {data : α} {events : List (Event T α)} {event : Event T α}
  {system system' : System T α}

/-- A thread that goes on, with as much to do as before, leaves all that is to be done. -/
theorem todo_put {t : T} {thread : Thread α} (h : thread.todo = (system.threads t).todo) (other : T) :
    ((system.put t thread).threads other).todo = (system.threads other).todo := by
  by_cases ho : other = t
  · rw [ho, threads_put, h]
  · rw [threads_put_of_ne _ ho]

/-- A step begins the visit that is next, or none. -/
theorem Step.begun_append_todo (h : Step system event system') (other : T) :
    begun other [event] ++ (system'.threads other).todo = (system.threads other).todo := by
  cases h with
  | @enters t visit todo state hthread ha =>
    by_cases ho : other = t
    · subst ho
      simp [begun, Event.begun?, put, hthread, Thread.todo]
    · simp [begun, Event.begun?, put, ho, Ne.symm ho]
  | waits => rfl
  | fails hthread => exact todo_put (by rw [hthread]; rfl) other
  | loads hthread => exact todo_put (by rw [hthread]; rfl) other
  | stores hthread => exact todo_put (by rw [hthread]; rfl) other
  | leaves hthread => exact todo_put (by rw [hthread]; rfl) other

/-- Every thread begins its visits in their order, each once. -/
theorem Run.begun_append_todo {visits : T → List (Visit α)} (h : Run (start data visits) events system) (t : T) :
    begun t events ++ (system.threads t).todo = visits t := by
  induction h with
  | nil => rfl
  | @snoc events event system system' hrun hs ih =>
    rw [← ih, ← hs.begun_append_todo t, begun, List.filterMap_append, List.append_assoc]
    rfl

/-! ## Runs -/

/-- A run is as good as the visits of its writers one after another, in the order in which they entered. Once all guards are
dropped, the data are what the visits that came to an end make of them, and none of a writer who entered is missing. What a
reader sees at any time of its visit is what the visits that had come to an end when it entered made of the data. And every
thread has begun the first of its visits, each once, and has the others still to make. -/
structure Serialized (data : α) (visits : T → List (Visit α)) (events : List (Event T α)) (system : System T α) : Prop where
  data_eq : system.scene.guards = [] → system.data = serial (completed events) data
  completed_eq : system.scene.guards = [] → completed events = acquired events
  loaded_eq : ∀ {front back tail t visit value}, events = front ++ .entered t visit :: (back ++ .loaded t value :: tail) →
    visit.mode = .shared → (∀ event ∈ back, event.isLeft t = false) → value = serial (completed front) data
  begun_eq : ∀ t, begun t events ++ (system.threads t).todo = visits t

/-- Every run is as good as the visits of its writers one after another. -/
theorem Run.serialized {visits : T → List (Visit α)} (h : Run (start data visits) events system) :
    Serialized data visits events system where
  data_eq hg := (h.tracked.settled (by simp [hg])).2
  completed_eq hg := (h.tracked.settled (by simp [hg])).1
  loaded_eq := by
    intro front back tail t visit value hevents hm hback
    rw [← List.cons_append, ← List.append_assoc] at hevents
    obtain ⟨before, after, hrun, hstep⟩ := h.exists_step hevents
    have hopen : Open (front ++ .entered t visit :: back) front t visit := ⟨back, rfl, hback⟩
    have hdata := hrun.tracked.reading hopen hm
    cases hstep
    exact hdata
  begun_eq := h.begun_append_todo

/-! ## Counting -/

/-- Each visit changes the data once. -/
theorem serial_of_modify {change : α → α} {visits : List (Visit α)} (h : ∀ visit ∈ visits, visit = Visit.modify change)
    (data : α) : serial visits data = change^[visits.length] data := by
  induction visits generalizing data with
  | nil => rfl
  | cons visit visits ih =>
    obtain ⟨rfl, hrest⟩ := List.forall_mem_cons.1 h
    exact ih hrest (change data)

/-- Threads that change the data `k` times each change them `n * k` times. -/
theorem Run.data_modify {n k : Nat} {change : α → α} {events : List (Event (Fin n) α)} {system : System (Fin n) α}
    (h : Run (start data fun _ => List.replicate k (.modify change)) events system)
    (ht : ∀ t, system.threads t = .outside []) : system.data = change^[n * k] data := by
  have hguards := h.placed.guards_eq_nil ht
  have hbegun : ∀ t, begun t events = List.replicate k (.modify change) := by
    intro t
    have := h.begun_append_todo t
    rwa [ht, Thread.todo, List.append_nil] at this
  have hall : ∀ visit ∈ acquired events, visit = Visit.modify change := by
    intro visit hm
    obtain ⟨t, hb⟩ := exists_mem_begun hm
    rw [hbegun] at hb
    exact List.eq_of_mem_replicate hb
  have hlength : (acquired events).length = n * k := by
    simp [length_acquired, hbegun, List.countP_replicate, Visit.modify]
  rw [h.serialized.data_eq hguards, h.serialized.completed_eq hguards, serial_of_modify hall, hlength]

/-- The steps of any number of threads, mixed in any way, are as good as the visits of the writers one after another; so `n`
threads that add one `k` times each leave `n * k` more than there was. -/
theorem run_serialized :
    (∀ (T α : Type) [DecidableEq T] (data : α) (visits : T → List (Visit α)) (events : List (Event T α))
      (system : System T α), Run (start data visits) events system → Serialized data visits events system) ∧
    ∀ (n k : Nat) (data : ℤ) (events : List (Event (Fin n) ℤ)) (system : System (Fin n) ℤ),
      Run (start data fun _ => List.replicate k (.modify (· + 1))) events system →
      (∀ t, system.threads t = .outside []) → system.data = data + n * k := by
  refine ⟨fun _ _ _ _ _ _ _ h => h.serialized, fun n k data events system h ht => ?_⟩
  rw [h.data_modify ht, add_right_iterate]
  simp

/-- Two threads add one; the second tries while the first is inside. -/
theorem run_serialized_two : ∃ events system,
    Run (start 0 fun _ : Fin 2 => List.replicate 1 (.modify (· + 1))) events system ∧
      (∀ t, system.threads t = .outside []) ∧ system.data = (2 : ℤ) := by
  have hentered := (Run.nil : Run (start (0 : ℤ) fun _ : Fin 2 => List.replicate 1 (.modify (· + 1))) _ _).snoc
    (.enters (t := 0) rfl rfl)
  have hwaited := hentered.snoc (.waits (t := 1) rfl (Or.inl rfl))
  have hleft := ((hwaited.snoc (.loads (t := 0) rfl)).snoc (.stores (t := 0) rfl)).snoc (.leaves (t := 0) rfl)
  have hrun := (((hleft.snoc (.enters (t := 1) rfl rfl)).snoc (.loads (t := 1) rfl)).snoc (.stores (t := 1) rfl)).snoc
    (.leaves (t := 1) rfl)
  refine ⟨_, _, hrun, fun | 0 => rfl | 1 => rfl, ?_⟩
  exact run_serialized.2 2 1 0 _ _ hrun fun | 0 => rfl | 1 => rfl

end System

namespace Bench

/-- Writers who find the lock free change the data one after another. -/
theorem repeat_write {bench : Bench} (h : bench.state = free) (change : List Int → List Int) (n : Nat) :
    n.repeat (write · change) bench = { bench with data := change^[n] bench.data } := by
  induction n with
  | zero => rfl
  | succ n ih =>
    rw [Nat.repeat, ih, Function.iterate_succ_apply']
    simp [write, h, tryWrite, leaveWrite]

/-- The threads of an exercise leave the same data as in any run in which their steps are mixed. -/
theorem data_threads {bench : Bench} (h : bench.state = free) {count : Nat} {events : List (Event (Fin count) (List Int))}
    {system : System (Fin count) (List Int)}
    (hrun : (System.start (bench.data ++ [0]) fun _ => List.replicate sections (Visit.modify bump)).Run events system)
    (ht : ∀ t, system.threads t = .outside []) : (bench.run (.threads count)).1.data = system.data := by
  have hpush : bench.write (· ++ [0]) = { bench with data := bench.data ++ [0] } := by
    simp [write, h, tryWrite, leaveWrite]
  rw [hrun.data_modify ht, run, hpush, repeat_write (by exact h)]
  rfl

end Bench

end PrivateLog.Lock
