import PrivateLog.Proofs.Lock.Events
import PrivateLog.Proofs.Lock.Places

/-!
# Keeping track of the data

What is true of the data at every moment of a run (`System.Tracked`), and why each step keeps it so. While a writer is inside,
the data may be anything that its program puts there on the way; what counts is that the rest of the program makes of them
what the whole makes of the data it found.
-/

namespace PrivateLog.Lock

variable {T α : Type} [DecidableEq T]

namespace System

/-- How the data, `data` at first, come about. The visits that are open are those of the threads inside. When no writer is
inside, all who entered are through, and the data are what their visits make of them one after another. The visit of a
writer who is inside will, with what is left of it, make what it would make of the data that the writers before it left. And
while a reader is inside, the data stay what they were when it entered. -/
structure Tracked (data : α) (events : List (Event T α)) (system : System T α) : Prop where
  visiting : ∀ {front t visit}, Open events front t visit → (system.threads t).visit? = some visit
  settled : (∀ guard ∈ system.scene.guards, guard.mode = .shared) →
    completed events = acquired events ∧ system.data = serial (completed events) data
  writing : ∀ {t visit rest todo}, system.threads t = .inside visit rest todo → visit.mode = .exclusive →
    ∃ front back, events = front ++ .entered t visit :: back ∧ completed front = acquired front ∧ acquired back = [] ∧
      rest.run system.data = visit.program.run (serial (acquired front) data)
  reading : ∀ {front t visit}, Open events front t visit → visit.mode = .shared →
    system.data = serial (completed front) data

variable {data : α} {events : List (Event T α)} {event : Event T α} {system system' : System T α}

/-- At first nobody has visited the data. -/
theorem tracked_start (visits : T → List (Visit α)) : Tracked data [] (start data visits) where
  visiting := by
    rintro front t visit ⟨back, hback, -⟩
    simp at hback
  settled _ := ⟨rfl, rfl⟩
  writing h := by cases h
  reading := by
    rintro front t visit ⟨back, hback, -⟩
    simp at hback

/-- A quiet step that leaves the data alone, and what is left of each visit as good as before. -/
theorem Tracked.quiet (h : Tracked data events system) (hq : event.isQuiet = true) (hd : system'.data = system.data)
    (hs : system'.scene = system.scene) (hv : ∀ t, (system'.threads t).visit? = (system.threads t).visit?)
    (hrun : ∀ {t visit rest todo}, system'.threads t = .inside visit rest todo →
      ∃ before todo, system.threads t = .inside visit before todo ∧ rest.run system.data = before.run system.data) :
    Tracked data (events ++ [event]) system' := by
  have hopen : ∀ {front t visit}, Open (events ++ [event]) front t visit → Open events front t visit := by
    intro front t visit ho
    rcases open_snoc_iff.1 ho with ⟨rfl, -⟩ | ⟨ho, -⟩
    · cases hq
    · exact ho
  have hcompleted : completed (events ++ [event]) = completed events := completed_snoc (Event.isLeft_of_isQuiet hq) events
  have hacquired : acquired (events ++ [event]) = acquired events := by
    rw [acquired_append, acquired_of_isQuiet hq, List.append_nil]
  refine ⟨fun ho => ?_, fun hg => ?_, fun ht hm => ?_, fun ho hm => ?_⟩
  · rw [hv]
    exact h.visiting (hopen ho)
  · rw [hcompleted, hacquired, hd]
    exact h.settled (hs ▸ hg)
  · obtain ⟨before, todo, hbefore, hsame⟩ := hrun ht
    obtain ⟨front, back, rfl, hfront, hback, hdata⟩ := h.writing hbefore hm
    refine ⟨front, back ++ [event], by simp, hfront, ?_, ?_⟩
    · rw [acquired_append, hback, acquired_of_isQuiet hq, List.append_nil]
    · rw [hd, hsame, hdata]
  · rw [hd]
    exact h.reading (hopen ho) hm

/-- The visit of a thread that enters is open from then on, and those of the others stay so. -/
theorem Tracked.visiting_enter (h : Tracked data events system) {t : T} {visit : Visit α} {todo : List (Visit α)}
    (hthread : system.threads t = .outside (visit :: todo)) {front : List (Event T α)} {other : T} {visit' : Visit α}
    (ho : Open (events ++ [.entered t visit]) front other visit') :
    ((system.put t (.inside visit visit.program todo)).threads other).visit? = some visit' := by
  rcases open_snoc_iff.1 ho with ⟨he, -⟩ | ⟨ho, -⟩
  · cases he
    rw [threads_put]
    rfl
  · have hv := h.visiting ho
    have hne : other ≠ t := by
      rintro rfl
      rw [hthread] at hv
      cases hv
    rw [threads_put_of_ne _ hne]
    exact hv

/-- A reader enters: the data that it will see are those that the writers before it left. -/
theorem Tracked.enter_shared (h : Tracked data events system) (hp : system.Placed) {t : T} {visit : Visit α}
    {todo : List (Visit α)} {state : Nat} (hthread : system.threads t = .outside (visit :: todo))
    (hm : visit.mode = .shared) (ha : attempt .shared system.scene.state = .entered state) :
    Tracked data (events ++ [.entered t visit])
      { system.put t (.inside visit visit.program todo) with scene := system.scene.enter ⟨t, visit.mode⟩ state } := by
  have hshared := hp.shared_of_enter_shared ha
  obtain ⟨hcompleted, hdata⟩ := h.settled hshared
  have hcompleted' : completed (events ++ [.entered t visit]) = completed events := completed_snoc (fun _ => rfl) events
  have hacquired' : acquired (events ++ [.entered t visit]) = acquired events := by
    rw [acquired_append]
    simp [acquired, hm]
  refine ⟨h.visiting_enter hthread, fun _ => ?_, ?_, fun ho hm' => ?_⟩
  · rw [hcompleted', hacquired']
    exact ⟨hcompleted, hdata⟩
  · -- a writer inside would be the new reader, or one that the reader has met
    intro other visit' rest todo' ht hm'
    by_cases hne : other = t
    · subst hne
      rw [threads_put] at ht
      cases ht
      rw [hm] at hm'
      cases hm'
    · rw [threads_put_of_ne _ hne] at ht
      have hguard := hshared _ (hp.guard_mem (by rw [ht]; rfl))
      rw [hm'] at hguard
      cases hguard
  · rcases open_snoc_iff.1 ho with ⟨he, rfl⟩ | ⟨ho, -⟩
    · exact hdata
    · exact h.reading ho hm'

/-- A writer enters: nobody else is inside, and all of its visit is still to come. -/
theorem Tracked.enter_exclusive (h : Tracked data events system) (hp : system.Placed) {t : T} {visit : Visit α}
    {todo : List (Visit α)} {state : Nat} (hthread : system.threads t = .outside (visit :: todo))
    (hm : visit.mode = .exclusive) (ha : attempt .exclusive system.scene.state = .entered state) :
    Tracked data (events ++ [.entered t visit])
      { system.put t (.inside visit visit.program todo) with scene := system.scene.enter ⟨t, visit.mode⟩ state } := by
  have hnone := hp.visit_eq_none_of_enter_exclusive ha
  have hguards : ∀ guard ∈ system.scene.guards, guard.mode = .shared := by
    intro guard hg
    obtain ⟨visit', hv, -⟩ := (hp.guard_iff guard.holder guard.mode).1 hg
    rw [hnone] at hv
    cases hv
  obtain ⟨hcompleted, hdata⟩ := h.settled hguards
  refine ⟨h.visiting_enter hthread, fun hg => ?_, ?_, fun ho hm' => ?_⟩
  · have := hg ⟨t, visit.mode⟩ List.mem_cons_self
    rw [hm] at this
    cases this
  · intro other visit' rest todo' ht hm'
    by_cases hne : other = t
    · subst hne
      rw [threads_put] at ht
      cases ht
      refine ⟨events, [], rfl, hcompleted, rfl, ?_⟩
      rw [← hcompleted, ← hdata]
      rfl
    · rw [threads_put_of_ne _ hne] at ht
      have hv := hnone other
      rw [ht] at hv
      cases hv
  · rcases open_snoc_iff.1 ho with ⟨he, -⟩ | ⟨ho, -⟩
    · cases he
      rw [hm] at hm'
      cases hm'
    · have hv := h.visiting ho
      rw [hnone] at hv
      cases hv

/-- A writer puts other data in the place: that was the next step of its visit, and nobody else is inside. -/
theorem Tracked.store (h : Tracked data events system) (hp : system.Placed) {t : T} {program next : Program α .exclusive}
    {value : α} {todo : List (Visit α)}
    (hthread : system.threads t = .inside ⟨.exclusive, program⟩ (.store value next) todo) :
    Tracked data (events ++ [.stored t value])
      { system.put t (.inside ⟨.exclusive, program⟩ next todo) with data := value } := by
  have hvisit : (system.threads t).visit? = some ⟨.exclusive, program⟩ := by rw [hthread]; rfl
  have hopen : ∀ {front other visit}, Open (events ++ [.stored t value]) front other visit →
      Open events front other visit := by
    intro front other visit ho
    rcases open_snoc_iff.1 ho with ⟨he, -⟩ | ⟨ho, -⟩
    · cases he
    · exact ho
  refine ⟨fun ho => ?_, fun hg => ?_, ?_, fun ho hm => ?_⟩
  · refine (visit_put ?_ _).trans (h.visiting (hopen ho))
    rw [hvisit]
    rfl
  · cases hg _ (hp.guard_mem hvisit)
  · intro other visit rest todo' ht hm
    have hother : other = t := by
      by_contra hne
      rw [threads_put_of_ne _ hne] at ht
      exact hne (hp.sole_writer hvisit rfl (by rw [ht]; rfl))
    subst hother
    rw [threads_put] at ht
    cases ht
    obtain ⟨front, back, rfl, hfront, hback, hdata⟩ := h.writing hthread rfl
    refine ⟨front, back ++ [.stored other value], by simp, hfront, ?_, hdata⟩
    rw [acquired_append, hback]
    rfl
  · have hv := h.visiting (hopen ho)
    have hother := hp.sole_writer hvisit rfl hv
    subst hother
    rw [hvisit] at hv
    cases hv
    cases hm

/-- A thread leaves. If it is a writer, its visit has made of the data what it would make alone. -/
theorem Tracked.leave (h : Tracked data events system) {t : T} {visit : Visit α} {todo : List (Visit α)}
    (hthread : system.threads t = .inside visit .done todo) :
    Tracked data (events ++ [.left t])
      { system.put t (.outside todo) with scene := system.scene.drop ⟨t, visit.mode⟩ } := by
  have hvisit : (system.threads t).visit? = some visit := by rw [hthread]; rfl
  have hopen : ∀ {front other visit'}, Open (events ++ [.left t]) front other visit' →
      Open events front other visit' ∧ other ≠ t := by
    intro front other visit' ho
    rcases open_snoc_iff.1 ho with ⟨he, -⟩ | ⟨ho, hleft⟩
    · cases he
    · exact ⟨ho, fun he => by simp [Event.isLeft, he] at hleft⟩
  refine ⟨fun ho => ?_, fun hg => ?_, ?_, fun ho hm => h.reading (hopen ho).1 hm⟩
  · rw [threads_put_of_ne _ (hopen ho).2]
    exact h.visiting (hopen ho).1
  · cases hm : visit.mode with
    | shared =>
      have hshared : ∀ guard ∈ system.scene.guards, guard.mode = .shared := by
        intro guard hmem
        by_cases he : guard = ⟨t, visit.mode⟩
        · rw [he]
          exact hm
        · exact hg guard ((List.mem_erase_of_ne he).2 hmem)
      obtain ⟨hcompleted, hdata⟩ := h.settled hshared
      rw [completed_append hcompleted, acquired_append, ← hcompleted]
      simp [completed, acquired, put, hdata]
    | exclusive =>
      obtain ⟨front, back, rfl, hfront, hback, hdata⟩ := h.writing hthread hm
      rw [completed_left hm hfront hback]
      refine ⟨?_, ?_⟩
      · simp [acquired_append, acquired, hm, hback]
      · rw [serial_append]
        exact hdata
  · intro other visit' rest todo' ht hm
    have hne : other ≠ t := by
      rintro rfl
      rw [threads_put] at ht
      cases ht
    rw [threads_put_of_ne _ hne] at ht
    obtain ⟨front, back, rfl, hfront, hback, hdata⟩ := h.writing ht hm
    refine ⟨front, back ++ [.left t], by simp, hfront, ?_, hdata⟩
    rw [acquired_append, hback]
    rfl

/-- Every step keeps track of the data. -/
theorem Tracked.step (h : Tracked data events system) (hp : system.Placed) (hs : Step system event system') :
    Tracked data (events ++ [event]) system' := by
  cases hs with
  | @enters t visit todo state hthread ha =>
    rcases visit.mode.eq_shared_or with hm | hm
    · exact h.enter_shared hp hthread hm (hm ▸ ha)
    · exact h.enter_exclusive hp hthread hm (hm ▸ ha)
  | waits => exact h.quiet rfl rfl rfl (fun _ => rfl) fun ht => ⟨_, _, ht, rfl⟩
  | @fails t visit todo hthread =>
    refine h.quiet rfl rfl rfl (visit_put (by rw [hthread]; rfl)) ?_
    intro other visit' rest todo' ht
    by_cases hne : other = t
    · rw [hne, threads_put] at ht
      cases ht
    · rw [threads_put_of_ne _ hne] at ht
      exact ⟨_, _, ht, rfl⟩
  | @loads t visit next todo hthread =>
    refine h.quiet rfl rfl rfl (visit_put (by rw [hthread]; rfl)) ?_
    intro other visit' rest todo' ht
    by_cases hne : other = t
    · subst hne
      rw [threads_put] at ht
      cases ht
      exact ⟨_, _, hthread, rfl⟩
    · rw [threads_put_of_ne _ hne] at ht
      exact ⟨_, _, ht, rfl⟩
  | stores hthread => exact h.store hp hthread
  | leaves hthread => exact h.leave hthread

/-- Every run keeps track of the data. -/
theorem Run.tracked {visits : T → List (Visit α)} (h : Run (start data visits) events system) :
    Tracked data events system := by
  induction h with
  | nil => exact tracked_start visits
  | snoc hrun hs ih => exact ih.step hrun.placed hs

end System

end PrivateLog.Lock
