import PrivateLog.Proofs.Registry.Tasks

/-!
# Posts and their copies of the global list

A post hands its record to the loggers that were global when it copied the list, whatever becomes of the list and of the other
posts meanwhile, and no change of the list is lost (`System.Run.faithful`).
-/

namespace PrivateLog.Posting

open Lock (Visit)

variable {T : Type} {tasks : T → Task} {registry : Registry} {t other : T}

/-! ## Who changes the list -/

/-- The writers who entered are the tasks that change the list, if everybody who entered came for its task. -/
theorem acquired_eq {events : List (Lock.Event T (List Nat))}
    (h : ∀ t visit, .entered t visit ∈ events → visit = (tasks t).visit) :
    Lock.acquired events = (events.filterMap change?).map fun t => (tasks t).visit := by
  induction events with
  | nil => rfl
  | cons event events ih =>
    have hrest := ih fun t visit hmem => h t visit (List.mem_cons_of_mem _ hmem)
    cases event with
    | entered t visit =>
      obtain rfl := h t visit List.mem_cons_self
      by_cases hm : (tasks t).visit.mode = .exclusive <;> simp [Lock.acquired, change?, hm, hrest]
    | waited | failed | loaded | stored | left => exact hrest

/-- A task that changes the list entered as a writer. -/
theorem mem_changes_iff {events : List (Lock.Event T (List Nat))} :
    t ∈ events.filterMap change? ↔ ∃ visit, .entered t visit ∈ events ∧ visit.mode = .exclusive := by
  rw [List.mem_filterMap]
  constructor
  · rintro ⟨event, hmem, hevent⟩
    cases event with
    | entered other visit =>
      by_cases hm : visit.mode = .exclusive
      · simp only [change?, hm, if_true, Option.some.injEq] at hevent
        exact ⟨visit, hevent ▸ hmem, hm⟩
      · simp [change?, hm] at hevent
    | waited | failed | loaded | stored | left => cases hevent
  · rintro ⟨visit, hmem, hm⟩
    exact ⟨_, hmem, by simp [change?, hm]⟩

variable [DecidableEq T]

/-- A visit that a thread began is one with which it entered. -/
theorem mem_begun_iff {events : List (Lock.Event T (List Nat))} {visit : Visit (List Nat)} :
    visit ∈ Lock.begun t events ↔ .entered t visit ∈ events := by
  rw [Lock.begun, List.mem_filterMap]
  constructor
  · rintro ⟨event, hmem, hevent⟩
    cases event with
    | entered other visit' =>
      by_cases ho : other = t
      · simp only [Lock.Event.begun?, ho, if_true, Option.some.injEq] at hevent
        rw [← hevent, ← ho]
        exact hmem
      · simp [Lock.Event.begun?, ho] at hevent
    | waited | failed | loaded | stored | left => cases hevent
  · intro hmem
    exact ⟨_, hmem, by simp [Lock.Event.begun?]⟩

/-- A task changes the list no more often than it begins a visit. -/
theorem count_changes_le (t : T) (events : List (Lock.Event T (List Nat))) :
    (events.filterMap change?).count t ≤ (Lock.begun t events).length := by
  rw [Lock.begun, List.length_filterMap_eq_countP, List.count, List.countP_filterMap]
  refine List.countP_mono_left fun event _ hevent => ?_
  cases event with
  | entered other visit =>
    by_cases hm : visit.mode = .exclusive
    · simp only [change?, hm, if_true, Option.map_some, Option.getD_some, beq_iff_eq] at hevent
      simp [Lock.Event.begun?, hevent]
    · simp [change?, hm] at hevent
  | waited | failed | loaded | stored | left => cases hevent

/-- What the visits of some tasks make of the list is what the tasks make of it. -/
theorem serial_visits (changing : List Task) (registry : Registry) :
    Lock.serial (changing.map Task.visit) registry.globals = (after changing registry).globals := by
  induction changing generalizing registry with
  | nil => rfl
  | cons task changing ih =>
    refine Eq.trans ?_ (ih (task.run registry))
    rw [← Task.run_visit]
    rfl

/-! ## How far a post is -/

/-- How far a post is with its visit to the list, and what it has seen: it waits, has entered, or had its attempt overflow; or
it has copied the list, and is still there, or gone. -/
inductive Looked : Lock.Thread (List Nat) → List (List Nat) → Prop where
  | waiting : Looked (.outside [.look]) []
  | entered : Looked (.inside .look Visit.look.program []) []
  | failed : Looked (.failed [.look]) []
  | copied {value : List Nat} : Looked (.inside .look .done []) [value]
  | gone {value : List Nat} : Looked (.outside []) [value]

/-- A step at the list takes a post from one stage of its visit to the next, or leaves it where it is. -/
theorem Looked.step {list list' : Lock.System T (List Nat)} {event : Lock.Event T (List Nat)} {seen : List (List Nat)}
    (h : Looked (list.threads t) seen) (hs : list.Step event list') :
    Looked (list'.threads t) (seen ++ (copy? t event).toList) := by
  by_cases ho : event.thread = t
  · cases hs with
    | @enters u visit todo state hthread =>
      obtain rfl : u = t := ho
      rw [hthread] at h
      cases h
      simpa [copy?, Lock.System.put] using Looked.entered
    | waits => simpa [copy?] using h
    | @fails u visit todo hthread =>
      obtain rfl : u = t := ho
      rw [hthread] at h
      cases h
      simpa [copy?, Lock.System.put] using Looked.failed
    | @loads u visit next todo hthread =>
      obtain rfl : u = t := ho
      rw [hthread] at h
      cases h
      have hseen : copy? u (.loaded u list.data) = some list.data := by simp [copy?]
      rw [Lock.System.threads_put, hseen]
      exact .copied
    | @stores u program next value todo hthread =>
      obtain rfl : u = t := ho
      rw [hthread] at h
      cases h
    | @leaves u visit todo hthread =>
      obtain rfl : u = t := ho
      rw [hthread] at h
      cases h
      simpa [copy?, Lock.System.put] using Looked.gone
  · have hnone : copy? t event = none := by
      cases event with
      | loaded other value => simpa [copy?, Lock.Event.thread] using ho
      | entered | waited | failed | stored | left => rfl
    rw [hs.threads_of_ne ho, hnone]
    simpa using h

/-- Inside, a post looks at the list. -/
theorem Looked.visit_eq {visit : Visit (List Nat)} {rest : Lock.Program (List Nat) visit.mode}
    {todo : List (Visit (List Nat))} {seen : List (List Nat)} (h : Looked (.inside visit rest todo) seen) :
    visit = .look := by
  cases h <;> rfl

/-- A post sees the list no more than once. -/
theorem Looked.eq_nil_of_append {thread : Lock.Thread (List Nat)} {seen : List (List Nat)} {value : List Nat}
    (h : Looked thread (seen ++ [value])) : seen = [] := by
  generalize hall : seen ++ [value] = all at h
  cases h with
  | waiting | entered | failed => simp at hall
  | copied | gone => exact (List.append_eq_singleton_iff.1 hall).elim (·.1) fun h => by cases h.2

/-- What a post has seen is all that it has seen. -/
theorem Looked.eq_singleton_of_mem {thread : Lock.Thread (List Nat)} {seen : List (List Nat)} {value : List Nat}
    (h : Looked thread seen) (hmem : value ∈ seen) : seen = [value] := by
  cases h with
  | waiting | entered | failed => cases hmem
  | copied | gone => rw [List.mem_singleton.1 hmem]

namespace System

variable {events front back : List (Event T)} {event : Event T} {system system' : System T}

/-- What is true at every moment of a run. At the list the tasks make their visits, and nobody else changes it. Each logger
keeps the texts it was handed, behind those it had. A post has handed its record to the loggers of its copy, as far as it has
got; the others hand nothing over. -/
structure Tracked (registry : Registry) (tasks : T → Task) (events : List (Event T)) (system : System T) : Prop where
  run : (Lock.System.start registry.globals fun t => [(tasks t).visit]).Run (visits events) system.list
  globals_eq : system.registry.globals = system.list.data
  lines_eq : ∀ handle,
    system.registry.lines? handle = (registry.lines? handle).map (· ++ handed tasks handle events)
  looked : ∀ {t}, (tasks t).isPost = true → Looked (system.list.threads t) (copies t events)
  submitted : ∀ {t}, (tasks t).isPost = true → submittedBy t events ++ system.rest t = (copies t events).flatten
  silent : ∀ {t}, (tasks t).isPost = false → submittedBy t events = [] ∧ system.rest t = []

/-- At first nobody has done anything. -/
theorem tracked_start (registry : Registry) (tasks : T → Task) : Tracked registry tasks [] (start registry tasks) where
  run := .nil
  globals_eq := rfl
  lines_eq handle := by simp [start, handed, submissions]
  looked := by
    intro t hpost
    cases htask : tasks t with
    | post delivery record =>
      simp only [start, Lock.System.start, htask]
      exact .waiting
    | add | replace => simp [htask, Task.isPost] at hpost
  submitted _ := rfl
  silent _ := ⟨rfl, rfl⟩

/-- A step at the list: a post that copies it has handed nothing over so far. -/
theorem Tracked.visit {list : Lock.System T (List Nat)} {event : Lock.Event T (List Nat)}
    (h : Tracked registry tasks events system) (hs : system.list.Step event list) :
    Tracked registry tasks (events ++ [.visited event])
      ⟨list, system.registry.setGlobals list.data, copied tasks system.rest event⟩ where
  run := by
    rw [visits_visited]
    exact h.run.snoc hs
  globals_eq := rfl
  lines_eq handle := by
    rw [handed_visited]
    exact h.lines_eq handle
  looked hpost := by
    rw [copies_visited]
    exact (h.looked hpost).step hs
  submitted := by
    intro t hpost
    have hlooked := (h.looked hpost).step hs
    have hsubmitted := h.submitted hpost
    rw [submittedBy_visited, copies_visited]
    cases hcopy : copy? t event with
    | none => simpa [copied_of_none hcopy] using hsubmitted
    | some value =>
      -- it has seen nothing before, so what it has handed over is nothing
      rw [hcopy] at hlooked
      rw [hlooked.eq_nil_of_append] at hsubmitted ⊢
      obtain ⟨hnone, -⟩ := List.append_eq_nil_iff.1 hsubmitted
      simp [copied_of_some hpost hcopy, hnone]
  silent hpost := by
    rw [submittedBy_visited]
    exact ⟨(h.silent hpost).1, (copied_of_not_isPost hpost).trans (h.silent hpost).2⟩

/-- A post hands its record to the next logger of its copy. -/
theorem Tracked.submit {delivery : Delivery} {record : Record} {handle : Nat} {handles : List Nat}
    (h : Tracked registry tasks events system) (htask : tasks t = .post delivery record)
    (hrest : system.rest t = handle :: handles) :
    Tracked registry tasks (events ++ [.submitted t handle])
      ⟨system.list, system.registry.finishThrough delivery record (.shared (.direct handle)),
        Function.update system.rest t handles⟩ where
  run := by
    rw [visits_submitted]
    exact h.run
  globals_eq := by
    rw [Registry.finishThrough_eq, Registry.globals_finish]
    exact h.globals_eq
  lines_eq other := by
    rw [Registry.finishThrough_eq, Registry.lines?_finish, h.lines_eq, Option.map_map, handed_submitted, htask]
    by_cases ho : other = handle
    · subst ho
      simp [Access.handle, Task.text?, Function.comp_def]
    · simp [Access.handle, ho, Ne.symm ho, Function.comp_def]
  looked := by
    intro other hpost
    rw [copies_submitted]
    exact h.looked hpost
  submitted := by
    intro other hpost
    have hsubmitted := h.submitted hpost
    rw [submittedBy_submitted, copies_submitted]
    by_cases ho : t = other
    · subst ho
      rw [hrest] at hsubmitted
      simpa using hsubmitted
    · simpa [ho, Function.update_of_ne (Ne.symm ho)] using hsubmitted
  silent := by
    intro other hpost
    have ho : t ≠ other := by
      rintro rfl
      rw [htask] at hpost
      cases hpost
    simpa [submittedBy_submitted, ho, Function.update_of_ne (Ne.symm ho)] using h.silent hpost

/-- Every step keeps track of what the tasks do. -/
theorem Tracked.step (h : Tracked registry tasks events system) (hs : Step tasks system event system') :
    Tracked registry tasks (events ++ [event]) system' := by
  cases hs with
  | visits hs => exact h.visit hs
  | submits htask _ hrest => exact h.submit htask hrest

/-- Every run keeps track of what the tasks do. -/
theorem Run.tracked (h : Run registry tasks events system) : Tracked registry tasks events system := by
  induction h with
  | nil => exact tracked_start registry tasks
  | snoc _ hs ih => exact ih.step hs

/-! ## What follows for the list -/

/-- Whoever entered came for its task. -/
theorem Tracked.visit_eq (h : Tracked registry tasks events system) {visit : Visit (List Nat)}
    (hmem : .entered t visit ∈ visits events) : visit = (tasks t).visit := by
  have hbegun := h.run.begun_append_todo t
  have hvisit := List.mem_append_left (system.list.threads t).todo (mem_begun_iff.2 hmem)
  rw [hbegun] at hvisit
  exact List.mem_singleton.1 hvisit

/-- When no writer is inside, the list is what the changes made of it, one after another. -/
theorem Tracked.globals_eq_after (h : Tracked registry tasks events system)
    (hguards : ∀ guard ∈ system.list.scene.guards, guard.mode = .shared) :
    system.registry.globals = (after ((changes events).map tasks) registry).globals := by
  obtain ⟨hcompleted, hdata⟩ := h.run.tracked.settled hguards
  rw [h.globals_eq, hdata, hcompleted, acquired_eq fun t visit hmem => h.visit_eq hmem, ← serial_visits, List.map_map]
  rfl

/-- No task changes the list twice. -/
theorem Tracked.nodup_changes (h : Tracked registry tasks events system) : (changes events).Nodup := by
  refine List.nodup_iff_count_le_one.2 fun t => (count_changes_le t _).trans ?_
  have hbegun := congrArg List.length (h.run.begun_append_todo t)
  rw [List.length_append, List.length_singleton] at hbegun
  omega

/-- The tasks that change the list are those that took the lock and do not post. -/
theorem Tracked.mem_changes_iff (h : Tracked registry tasks events system) :
    t ∈ changes events ↔ (tasks t).isPost = false ∧ .entered t (tasks t).visit ∈ visits events := by
  rw [changes, Posting.mem_changes_iff]
  constructor
  · rintro ⟨visit, hmem, hm⟩
    obtain rfl := h.visit_eq hmem
    exact ⟨(Task.mode_visit _).1 hm, hmem⟩
  · rintro ⟨hpost, hmem⟩
    exact ⟨_, hmem, (Task.mode_visit _).2 hpost⟩

/-- A task that is away from the list, and has no visit to make, has made its visit. -/
theorem Tracked.entered_of_outside (h : Tracked registry tasks events system)
    (hthread : system.list.threads t = .outside []) : .entered t (tasks t).visit ∈ visits events := by
  have hbegun := h.run.begun_append_todo t
  rw [hthread, Lock.Thread.todo, List.append_nil] at hbegun
  exact mem_begun_iff.1 (by rw [hbegun]; exact List.mem_singleton.2 rfl)

/-! ## What follows for the posts -/

/-- A post copies the list as the changes so far have made it, and has handed nothing over before. -/
theorem Tracked.loaded (h : Tracked registry tasks events system) (hpost : (tasks t).isPost = true) {value : List Nat}
    (hs : Step tasks system (.visited (.loaded t value)) system') :
    value = (after ((changes events).map tasks) registry).globals ∧ submittedBy t events = [] := by
  cases hs with
  | visits hs =>
    have hlooked := (h.looked hpost).step hs
    have hsubmitted := h.submitted hpost
    have hseen : copy? t (.loaded t value) = some value := by simp [copy?]
    rw [hseen] at hlooked
    rw [hlooked.eq_nil_of_append] at hsubmitted
    refine ⟨?_, (List.append_eq_nil_iff.1 hsubmitted).1⟩
    cases hs with
    | @loads u visit next todo hthread =>
      have hreader : visit.mode = .shared := by
        have hinside := h.looked hpost
        rw [hthread] at hinside
        rw [hinside.visit_eq]
        rfl
      rw [← h.globals_eq]
      exact h.globals_eq_after (h.run.placed.shared_of_reader (by rw [hthread]; rfl) hreader)

/-- A task that hands a record over posts it, and has copied the list. -/
theorem Tracked.isPost_of_submitted (h : Tracked registry tasks events system) {handle : Nat}
    (hmem : .submitted t handle ∈ events) :
    (tasks t).isPost = true ∧ ∃ value, .visited (.loaded t value) ∈ events ∧ handle ∈ value := by
  have hhandle := mem_submittedBy_iff.2 hmem
  cases hpost : (tasks t).isPost with
  | false =>
    rw [(h.silent hpost).1] at hhandle
    cases hhandle
  | true =>
    have hall := List.mem_append_left (system.rest t) hhandle
    rw [h.submitted hpost] at hall
    obtain ⟨value, hvalue, hmem⟩ := List.mem_flatten.1 hall
    exact ⟨rfl, value, mem_copies_iff.1 hvalue, hmem⟩

/-- A post that is away from the list hands its record to all loggers that are left of its copy, and nobody has to wait for it
meanwhile. -/
theorem exists_submits {delivery : Delivery} {record : Record} (htask : tasks t = .post delivery record)
    (hthread : system.list.threads t = .outside []) :
    ∃ system', Steps (Step tasks) system ((system.rest t).map (.submitted t)) system' ∧ system'.rest t = [] ∧
      system'.registry = system.registry.handOver delivery record (system.rest t) := by
  generalize hrest : system.rest t = handles
  induction handles generalizing system with
  | nil => exact ⟨system, .nil, hrest, rfl⟩
  | cons handle handles ih =>
    have hstep := Step.submits htask hthread hrest
    obtain ⟨system', hsteps, hdone, hregistry⟩ :=
      @ih ⟨system.list, system.registry.finishThrough delivery record (.shared (.direct handle)),
        Function.update system.rest t handles⟩ hthread (Function.update_self ..)
    refine ⟨system', (Steps.nil.snoc hstep).append hsteps, hdone, hregistry.trans ?_⟩
    rw [Registry.finishThrough_eq]
    rfl

/-- Alone, a post that finds the lock open copies the list and leaves. -/
theorem Tracked.exists_copy (h : Tracked registry tasks events system) (hpost : (tasks t).isPost = true) {state : Nat}
    (hthread : system.list.threads t = .outside [.look])
    (hstate : Lock.attempt .shared system.list.scene.state = .entered state) :
    ∃ events' system', Steps (Step tasks) system events' system' ∧ (∀ event ∈ events', event.task = t) ∧
      system'.list.threads t = .outside [] ∧ system'.rest t = system.registry.globals ∧
      system'.registry = system.registry := by
  have hentered := (Steps.nil : Steps (Step tasks) system [] system).snoc (.visits (.enters hthread hstate))
  have hloaded := hentered.snoc (.visits (.loads (Function.update_self ..)))
  have hleft := hloaded.snoc (.visits (.leaves (Function.update_self ..)))
  refine ⟨_, _, hleft, ?_, Function.update_self .., ?_, ?_⟩
  · simp [Event.task, Lock.Event.thread]
  · simp [copied, hpost, Lock.System.put, h.globals_eq]
  · simp [Lock.System.put, Registry.setGlobals, ← h.globals_eq]

/-- Alone, a post does what it does in one go. -/
theorem Tracked.exists_post (h : Tracked registry tasks events system) {delivery : Delivery} {record : Record} {state : Nat}
    (htask : tasks t = .post delivery record) (hthread : system.list.threads t = .outside [.look])
    (hstate : Lock.attempt .shared system.list.scene.state = .entered state) :
    ∃ events' system', Steps (Step tasks) system events' system' ∧ (∀ event ∈ events', event.task = t) ∧
      system'.rest t = [] ∧ system'.registry = system.registry.post delivery record := by
  obtain ⟨copying, copied, hcopy, hown, hgone, hrest, hregistry⟩ := h.exists_copy (by rw [htask]; rfl) hthread hstate
  obtain ⟨system', hsteps, hdone, hall⟩ := exists_submits htask hgone
  refine ⟨_, system', hcopy.append hsteps, fun event hmem => ?_, hdone, ?_⟩
  · rcases List.mem_append.1 hmem with hmem | hmem
    · exact hown event hmem
    · obtain ⟨handle, -, rfl⟩ := List.mem_map.1 hmem
      rfl
  · rw [hall, hrest, hregistry, Registry.post_eq]

/-- Unless all tasks are through, or had their attempts overflow, one of them gets on. -/
theorem Tracked.exists_step (h : Tracked registry tasks events system)
    (hfailed : ∀ todo, system.list.threads t ≠ .failed todo)
    (ht : system.list.threads t ≠ .outside [] ∨ system.rest t ≠ []) :
    ∃ event system', Step tasks system event system' ∧ event.advances = true := by
  cases hthread : system.list.threads t with
  | failed todo => exact absurd hthread (hfailed todo)
  | inside visit rest todo =>
    obtain ⟨event, list, hs, hevent⟩ := Lock.System.exists_step_of_inside hthread
    exact ⟨_, _, .visits hs, hevent⟩
  | outside todo =>
    cases todo with
    | cons visit todo =>
      obtain ⟨event, list, hs, hevent⟩ := h.run.placed.exists_step hthread
      exact ⟨_, _, .visits hs, hevent⟩
    | nil =>
      have hrest : system.rest t ≠ [] := ht.resolve_left fun hne => hne hthread
      cases htask : tasks t with
      | post delivery record =>
        obtain ⟨handle, handles, hhandles⟩ := List.exists_cons_of_ne_nil hrest
        exact ⟨_, _, .submits htask hthread hhandles, rfl⟩
      | add | replace => exact absurd (h.silent (by rw [htask]; rfl)).2 hrest

/-! ## Runs -/

/-- Posts go to their copies of the list, and no change of the list is lost. A post copies the list as it is when it reads it,
which is what the changes so far have made of it; it hands its record to the loggers of this copy in their order, each as
often as it stands there, and to no others. Whoever is away from the list with nothing more to do there has been there; it
holds no guard, and if it posts it can hand its record to all loggers that are left, whatever the others do; alone it does
what `Registry.post` does. When no writer is inside, the list is what the changes made of it one after another, each of them
once and none missing. Each logger keeps the texts that it was handed. And as long as a task is not through, one of them
gets on. -/
structure Faithful (registry : Registry) (tasks : T → Task) (events : List (Event T)) (system : System T) : Prop where
  posted : ∀ {t value front back}, (tasks t).isPost = true → events = front ++ .visited (.loaded t value) :: back →
    value = (after ((changes front).map tasks) registry).globals ∧ submittedBy t front = [] ∧
      submittedBy t events ++ system.rest t = value
  handed_only : ∀ {t handle}, .submitted t handle ∈ events →
    (tasks t).isPost = true ∧ ∃ value, .visited (.loaded t value) ∈ events ∧ handle ∈ value
  copied : ∀ {t}, (tasks t).isPost = true → system.list.threads t = .outside [] →
    ∃ value, .visited (.loaded t value) ∈ events
  unguarded : ∀ {t}, system.list.threads t = .outside [] → ∀ guard ∈ system.list.scene.guards, guard.holder ≠ t
  finishes : ∀ {t}, (tasks t).isPost = true → system.list.threads t = .outside [] →
    ∃ system', Steps (Step tasks) system ((system.rest t).map (.submitted t)) system' ∧ system'.rest t = []
  alone : ∀ {t delivery record state}, tasks t = .post delivery record → system.list.threads t = .outside [.look] →
    Lock.attempt .shared system.list.scene.state = .entered state →
    ∃ events' system', Steps (Step tasks) system events' system' ∧ (∀ event ∈ events', event.task = t) ∧
      system'.rest t = [] ∧ system'.registry = system.registry.post delivery record
  listed : (∀ guard ∈ system.list.scene.guards, guard.mode = .shared) →
    system.registry.globals = (after ((changes events).map tasks) registry).globals
  once : (changes events).Nodup ∧ ∀ t ∈ changes events, (tasks t).isPost = false
  none_missing : ∀ {t}, (tasks t).isPost = false → system.list.threads t = .outside [] → t ∈ changes events
  kept : ∀ handle, system.registry.lines? handle = (registry.lines? handle).map (· ++ handed tasks handle events)
  goes_on : ∀ {t}, (∀ todo, system.list.threads t ≠ .failed todo) →
    system.list.threads t ≠ .outside [] ∨ system.rest t ≠ [] →
    ∃ event system', Step tasks system event system' ∧ event.advances = true

/-- In every run posts go to their copies of the list, and no change of the list is lost. -/
theorem Run.faithful (h : Run registry tasks events system) : Faithful registry tasks events system where
  posted := by
    intro t value front back hpost hevents
    obtain ⟨before, _, hrun, hstep, -⟩ := h.split hevents
    obtain ⟨hvalue, hfront⟩ := (Run.tracked hrun).loaded hpost hstep
    refine ⟨hvalue, hfront, ?_⟩
    have hcopy : value ∈ copies t events :=
      mem_copies_iff.2 (hevents ▸ List.mem_append_right _ List.mem_cons_self)
    rw [h.tracked.submitted hpost, (h.tracked.looked hpost).eq_singleton_of_mem hcopy]
    simp
  handed_only := h.tracked.isPost_of_submitted
  copied := by
    intro t hpost hthread
    have hlooked := h.tracked.looked hpost
    rw [hthread] at hlooked
    generalize hseen : copies t events = seen at hlooked
    cases hlooked with
    | gone => exact ⟨_, mem_copies_iff.1 (by rw [hseen]; exact List.mem_singleton.2 rfl)⟩
  unguarded := by
    rintro t hthread guard hguard rfl
    obtain ⟨visit, hvisit, -⟩ := (h.tracked.run.placed.guard_iff guard.holder guard.mode).1 hguard
    rw [hthread] at hvisit
    cases hvisit
  finishes := by
    intro t hpost hthread
    cases htask : tasks t with
    | post delivery record =>
      obtain ⟨system', hsteps, hdone, -⟩ := exists_submits htask hthread
      exact ⟨system', hsteps, hdone⟩
    | add | replace =>
      rw [htask] at hpost
      cases hpost
  alone := h.tracked.exists_post
  listed := h.tracked.globals_eq_after
  once := ⟨h.tracked.nodup_changes, fun _ hmem => (h.tracked.mem_changes_iff.1 hmem).1⟩
  none_missing hpost hthread := h.tracked.mem_changes_iff.2 ⟨hpost, h.tracked.entered_of_outside hthread⟩
  kept := h.tracked.lines_eq
  goes_on := h.tracked.exists_step

/-- The list is emptied while a record is on its way to the second of two loggers. -/
theorem faithful_of_replace : ∃ events system,
    Run ⟨[.memory [], .memory []], [0, 1], {}, ""⟩
      (fun t : Fin 2 => if t = 0 then .post .immediate ⟨["a"], .info⟩ else .replace []) events system ∧
      submittedBy 0 events = [0, 1] ∧ changes events = [1] ∧ system.registry.globals = [] ∧
      system.registry.lines? 1 = some ["a"] := by
  have hcopied := (((Steps.nil : Run ⟨[.memory [], .memory []], [0, 1], {}, ""⟩
      (fun t : Fin 2 => if t = 0 then .post .immediate ⟨["a"], .info⟩ else .replace []) _ _).snoc
      (.visits (.enters (t := 0) rfl rfl))).snoc (.visits (.loads (t := 0) rfl))).snoc (.visits (.leaves (t := 0) rfl))
  have hfirst := hcopied.snoc (.submits (t := 0) rfl rfl rfl)
  have hreplaced := (((hfirst.snoc (.visits (.enters (t := 1) rfl rfl))).snoc (.visits (.loads (t := 1) rfl))).snoc
    (.visits (.stores (t := 1) rfl))).snoc (.visits (.leaves (t := 1) rfl))
  have hrun := hreplaced.snoc (.submits (t := 0) rfl rfl rfl)
  have hfaithful := Run.faithful hrun
  refine ⟨_, _, hrun, ?_, rfl, hfaithful.listed ?_, hfaithful.kept 1⟩
  · obtain ⟨-, -, hsubmitted⟩ := @hfaithful.posted 0 [0, 1] [.visited (.entered 0 .look)] _ rfl rfl
    exact (List.append_nil _).symm.trans hsubmitted
  · exact fun _ hguard => nomatch hguard

end System

end PrivateLog.Posting
