import PrivateLog.Proofs.Logger.Output
import PrivateLog.Proofs.Logger.Requests

/-!
# Where the texts are

Every text that was pushed is in one place, in a drain or with the logger. The invariant of a run (`System.Accounted`) says so
also while a drain is under way, when the texts that it has taken are still kept; and it says what each thread has pushed and
which drains have taken the mutex. `System.run_accounted` draws from it what can be said whenever the mutex is free.
-/

namespace PrivateLog.Sharing

/-- The row mixes the sequences: each place of it belongs to one of them, and the places of each are that sequence, from left
to right. -/
def Interleaves {T α : Type} [DecidableEq T] (sequences : T → List α) (row : List α) : Prop :=
  ∃ marked : List (T × α), marked.map (·.2) = row ∧ ∀ t, (marked.filter (·.1 = t)).map (·.2) = sequences t

/-- What is to be seen of some texts when a request empties the logger: each of them on a line of the console, or one text with a
line break between each two. -/
def Request.output : Request → List String → String
  | .drainToConsole, batch => Lines.ended batch
  | _, batch => Lines.separated batch

/-- That is what the logger shows. -/
theorem Request.shown_eq (request : Request) (batch : List String) : request.shown batch = request.output batch := by
  cases request with
  | drainToConsole => exact Logger.printed_eq batch
  | finish | drain | count | isEmpty => exact Logger.joined_eq batch

namespace Thread

/-- Whether the thread has the mutex. -/
def isInside : Thread → Bool
  | .inside _ _ _ => true
  | .outside _ => false

/-- Whether the thread has copied texts that it has not cleared. -/
def isCopying : Thread → Bool
  | .inside _ .copied _ => true
  | _ => false

/-- The drain for which the thread has the mutex and has not yet taken the texts. -/
def openDrain? : Thread → Option Request
  | .inside request .fresh _ => if request.isDrain then some request else none
  | _ => none

/-- The texts that the thread has still to push. -/
def texts : Thread → List String
  | .outside todo => todo.filterMap Request.text?
  | .inside request .fresh todo => (request :: todo).filterMap Request.text?
  | .inside _ _ todo => todo.filterMap Request.text?

end Thread

namespace System

variable {T : Type} {system system' : System T} {t other : T} {request : Request} {stage : Stage} {todo : List Request}

/-- The thread that has the mutex is the one inside, if any is. -/
def Held (system : System T) : Prop :=
  ∀ t, system.holder = some t ↔ (system.threads t).isInside = true

/-- Whether texts are copied that are not yet cleared. -/
def isCopying (system : System T) : Bool :=
  system.holder.any fun t => (system.threads t).isCopying

/-- The drain that has the mutex and has not yet taken the texts. -/
def openDrain (system : System T) : Option (T × Request) :=
  system.holder.bind fun t => (system.threads t).openDrain?.map fun request => (t, request)

/-! ## Who has the mutex -/

/-- A thread inside has the mutex. -/
theorem Held.holder_eq (h : system.Held) (ht : system.threads t = .inside request stage todo) : system.holder = some t :=
  (h t).2 (by rw [ht]; rfl)

/-- When the mutex is free, nobody is inside. -/
theorem Held.isInside_eq_false (h : system.Held) (hfree : system.holder = none) (t : T) :
    (system.threads t).isInside = false := by
  cases hi : (system.threads t).isInside with
  | false => rfl
  | true =>
    rw [(h t).2 hi] at hfree
    cases hfree

/-- When nobody is inside, the mutex is free. -/
theorem Held.holder_eq_none (h : system.Held) (hout : ∀ t, (system.threads t).isInside = false) :
    system.holder = none := by
  cases hh : system.holder with
  | none => rfl
  | some t =>
    have hin := (h t).1 hh
    rw [hout] at hin
    cases hin

/-- Whether texts are copied is for the thread with the mutex to say. -/
theorem isCopying_of_holder (h : system.holder = some t) : system.isCopying = (system.threads t).isCopying := by
  simp [isCopying, h]

/-- While the mutex is free, no texts are copied. -/
theorem isCopying_of_free (h : system.holder = none) : system.isCopying = false := by
  simp [isCopying, h]

/-- The drain that has not yet begun is that of the thread with the mutex. -/
theorem openDrain_of_holder (h : system.holder = some t) :
    system.openDrain = (system.threads t).openDrain?.map (t, ·) := by
  simp [openDrain, h]

/-- While the mutex is free, no drain has it. -/
theorem openDrain_of_free (h : system.holder = none) : system.openDrain = none := by
  simp [openDrain, h]

variable [DecidableEq T]

/-- The thread that goes on is at its new place. -/
theorem threads_put (thread : Thread) : (system.put t thread).threads t = thread :=
  Function.update_self ..

/-- The others stay where they are. -/
theorem threads_put_of_ne (thread : Thread) (h : other ≠ t) :
    (system.put t thread).threads other = system.threads other :=
  Function.update_of_ne h ..

/-- A thread that stays inside keeps the mutex. -/
theorem Held.put {thread : Thread} (h : system.Held) (ht : (system.threads t).isInside = thread.isInside) :
    (system.put t thread).Held := by
  intro other
  by_cases ho : other = t
  · rw [ho, threads_put, ← ht]
    exact h t
  · rw [threads_put_of_ne _ ho]
    exact h other

/-- Whether texts are copied is for the new place of the thread with the mutex to say. -/
theorem isCopying_put (h : system.holder = some t) (thread : Thread) (logger : Logger) :
    { system.put t thread with logger := logger }.isCopying = thread.isCopying := by
  simp [isCopying, put, h]

/-- The drain that has not yet begun is that of the thread with the mutex, at its new place. -/
theorem openDrain_put (h : system.holder = some t) (thread : Thread) (logger : Logger) :
    { system.put t thread with logger := logger }.openDrain = thread.openDrain?.map (t, ·) := by
  simp [openDrain, put, h]

/-! ## The invariant -/

/-- How the texts are accounted for. What was drained, and what is kept and not yet copied, are the texts that were pushed, in
order. The drains took the texts in the order in which they took the mutex, but for one that has it and has not yet begun. And
what a thread has pushed, and what it has still to push, are the texts that it was to submit. -/
structure Accounted (requests : T → List Request) (events : List (Event T)) (system : System T) : Prop where
  held : system.Held
  kept : ∃ lines, system.logger.lines? = some lines ∧
    drained events ++ (if system.isCopying then [] else lines) = texts events
  drains : drainsLocked events = drainsTaken events ++ system.openDrain.toList
  submitted : ∀ t, pushedBy t events ++ (system.threads t).texts = (requests t).filterMap Request.text?

variable {requests : T → List Request} {events front back : List (Event T)} {event : Event T} {thread : Thread}
  {lines : List String}

/-- At first there is nothing to account for. -/
theorem accounted_start (requests : T → List Request) : Accounted requests [] (start requests) where
  held t := by simp [start, Thread.isInside]
  kept := ⟨[], rfl, rfl⟩
  drains := rfl
  submitted _ := rfl

/-- A thread that goes on has pushed what it has no more to push. -/
theorem submitted_put {sequences : T → List String}
    (h : ∀ t, pushedBy t events ++ (system.threads t).texts = sequences t) (hevent : event.thread = t)
    (ht : pushedBy t [event] ++ thread.texts = (system.threads t).texts) (other : T) :
    pushedBy other (events ++ [event]) ++ ((system.put t thread).threads other).texts = sequences other := by
  rw [pushedBy_append, List.append_assoc]
  by_cases ho : other = t
  · rw [ho, threads_put, ht, h]
  · rw [threads_put_of_ne _ ho, pushedBy_of_ne (by rw [hevent]; exact Ne.symm ho), List.nil_append, h]

/-- A thread takes the mutex: nothing is copied, and a drain has still to begin. -/
theorem Accounted.lock (h : Accounted requests events system) (hthread : system.threads t = .outside (request :: todo))
    (hfree : system.holder = none) :
    Accounted requests (events ++ [.locked t request])
      { system.put t (.inside request .fresh todo) with holder := some t } where
  held other := by
    by_cases ho : other = t
    · subst ho
      simp [put, Thread.isInside]
    · simp [put, Function.update_of_ne ho, h.held.isInside_eq_false hfree other, Ne.symm ho]
  kept := by
    obtain ⟨lines, hlines, hkept⟩ := h.kept
    refine ⟨lines, hlines, ?_⟩
    rw [isCopying_of_free hfree] at hkept
    rw [isCopying_of_holder rfl, drained_append, texts_append, ← hkept]
    simp [put, Thread.isCopying, drained, texts, pushed]
  drains := by
    rw [openDrain_of_holder rfl, drainsLocked_append, drainsTaken_append, h.drains, openDrain_of_free hfree]
    cases hd : request.isDrain <;> simp [put, Thread.openDrain?, drainsLocked, drainsTaken, hd]
  submitted := submitted_put h.submitted rfl (by rw [hthread]; rfl)

/-- A thread inside goes on: what it drains and what it leaves uncopied is what was uncopied, and what it pushes. -/
theorem Accounted.inside (h : Accounted requests events system) (hthread : system.threads t = .inside request stage todo)
    (hin : thread.isInside = true) {logger : Logger} (hevent : event.thread = t)
    (hkept : ∀ lines, system.logger.lines? = some lines → ∃ lines', logger.lines? = some lines' ∧
      drained [event] ++ (if thread.isCopying then [] else lines') =
        (if (Thread.inside request stage todo).isCopying then [] else lines) ++ texts [event])
    (hdrains : ((Thread.inside request stage todo).openDrain?.map (t, ·)).toList ++ drainsLocked [event] =
      drainsTaken [event] ++ (thread.openDrain?.map (t, ·)).toList)
    (htexts : pushedBy t [event] ++ thread.texts = (Thread.inside request stage todo).texts) :
    Accounted requests (events ++ [event]) { system.put t thread with logger := logger } where
  held := h.held.put (by rw [hthread, hin]; rfl)
  kept := by
    obtain ⟨lines, hlines, hall⟩ := h.kept
    obtain ⟨lines', hlines', hnew⟩ := hkept lines hlines
    refine ⟨lines', hlines', ?_⟩
    rw [isCopying_of_holder (h.held.holder_eq hthread), hthread] at hall
    rw [isCopying_put (h.held.holder_eq hthread), drained_append, List.append_assoc, hnew, ← List.append_assoc, hall,
      texts_append]
  drains := by
    have hall := h.drains
    rw [openDrain_of_holder (h.held.holder_eq hthread), hthread] at hall
    rw [openDrain_put (h.held.holder_eq hthread), drainsLocked_append, drainsTaken_append, hall, List.append_assoc,
      List.append_assoc, hdrains]
  submitted := submitted_put h.submitted hevent (htexts.trans (by rw [hthread]))

/-- A thread that looks at the texts leaves them where they are. -/
theorem Accounted.look (h : Accounted requests events system) (hthread : system.threads t = .inside request .fresh todo)
    (hrequest : request.text? = none ∧ request.isDrain = false) (hevent : event.thread = t)
    (hnone : pushed [event] = [] ∧ drained [event] = [] ∧ drainsLocked [event] = [] ∧ drainsTaken [event] = []) :
    Accounted requests (events ++ [event]) (system.put t (.inside request .done todo)) := by
  obtain ⟨htext, hdrain⟩ := hrequest
  obtain ⟨hpushed, hdrained, hlocked, htaken⟩ := hnone
  refine h.inside hthread rfl hevent (fun lines hlines => ⟨lines, hlines, ?_⟩) ?_ ?_
  · simp [hdrained, texts, hpushed, Thread.isCopying]
  · simp [hlocked, htaken, Thread.openDrain?, hdrain]
  · simp [pushedBy, hpushed, Thread.texts, htext]

/-- A thread leaves the mutex, with nothing copied and nothing to drain. -/
theorem Accounted.unlock (h : Accounted requests events system) (hthread : system.threads t = .inside request .done todo) :
    Accounted requests (events ++ [.unlocked t]) { system.put t (.outside todo) with holder := none } where
  held other := by
    by_cases ho : other = t
    · subst ho
      simp [put, Thread.isInside]
    · have hout : (system.threads other).isInside = false := by
        rw [← Bool.not_eq_true, ← h.held other, h.held.holder_eq hthread]
        simpa using Ne.symm ho
      simp [put, Function.update_of_ne ho, hout]
  kept := by
    obtain ⟨lines, hlines, hkept⟩ := h.kept
    refine ⟨lines, hlines, ?_⟩
    rw [isCopying_of_holder (h.held.holder_eq hthread), hthread] at hkept
    rw [isCopying_of_free rfl, drained_append, texts_append, ← hkept]
    simp [Thread.isCopying, drained, texts, pushed]
  drains := by
    rw [openDrain_of_free rfl, drainsLocked_append, drainsTaken_append, h.drains,
      openDrain_of_holder (h.held.holder_eq hthread), hthread]
    rfl
  submitted := submitted_put h.submitted rfl (by rw [hthread]; rfl)

/-- Every step keeps the texts accounted for. -/
theorem Accounted.step (h : Accounted requests events system) (hs : Step system event system') :
    Accounted requests (events ++ [event]) system' := by
  cases hs with
  | locks hthread hfree => exact h.lock hthread hfree
  | @pushes t delivery record todo hthread =>
    refine h.inside hthread rfl rfl (fun lines hlines => ⟨_, Logger.lines?_finish delivery record hlines, rfl⟩) rfl ?_
    simp [pushedBy, pushed, Thread.texts, Request.text?, Record.text]
  | @takes t request todo lines hthread hdrain hlines =>
    -- the texts count as drained from here on, though the logger keeps them until they are cleared
    refine h.inside hthread rfl rfl (fun lines' hlines' => ⟨lines', hlines', ?_⟩) ?_ ?_
    · obtain rfl : lines = lines' := Option.some_inj.1 (hlines.symm.trans hlines')
      simp [drained, texts, pushed, Thread.isCopying]
    · simp [drainsLocked, drainsTaken, Thread.openDrain?, hdrain]
    · cases request <;> first | rfl | cases hdrain
  | clears hthread =>
    exact h.inside hthread rfl rfl (fun lines hlines => ⟨[], Logger.lines?_clear hlines, rfl⟩) rfl rfl
  | counts hthread => exact h.look hthread ⟨rfl, rfl⟩ rfl ⟨rfl, rfl, rfl, rfl⟩
  | tests hthread => exact h.look hthread ⟨rfl, rfl⟩ rfl ⟨rfl, rfl, rfl, rfl⟩
  | unlocks hthread => exact h.unlock hthread

/-- In every run the texts are accounted for. -/
theorem Run.accounted (h : Run requests events system) : Accounted requests events system := by
  induction h with
  | nil => exact accounted_start requests
  | snoc _ hs ih => exact ih.step hs

/-- A thread that is inside, and has copied nothing, has what is kept before it. -/
theorem Accounted.lines_eq (h : Accounted requests events system) (hthread : system.threads t = .inside request .fresh todo)
    (hlines : system.logger.lines? = some lines) : drained events ++ lines = texts events := by
  obtain ⟨lines', hlines', hkept⟩ := h.kept
  obtain rfl : lines = lines' := Option.some_inj.1 (hlines.symm.trans hlines')
  rw [isCopying_of_holder (h.held.holder_eq hthread), hthread] at hkept
  exact hkept

/-! ## Runs -/

/-- Nothing is lost and nothing comes twice. While the mutex is free, the texts that were pushed are those of the drains, in the
order in which the drains took the mutex, and behind them those that are kept. Each thread has pushed the first of the texts
that it was to submit, each once, and has the others still to push. A drain shows the texts that it takes, and nothing else.
The number of texts is, each time it is asked for, that of the texts pushed and not yet drained. Once all threads are through,
the drains and what is kept mix the sequences of texts that the threads were to submit; and until then one of them can go on. -/
structure Lossless (requests : T → List Request) (events : List (Event T)) (system : System T) : Prop where
  kept : system.holder = none → ∃ lines, system.logger.lines? = some lines ∧ drained events ++ lines = texts events
  ordered : system.holder = none → drainsTaken events = drainsLocked events
  submitted : ∀ t, pushedBy t events ++ (system.threads t).texts = (requests t).filterMap Request.text?
  shown : ∀ {t request batch text}, .taken t request batch text ∈ events → text = request.output batch
  counted : ∀ {front back t count}, events = front ++ .counted t count :: back →
    (drained front).length + count = (texts front).length
  tested : ∀ {front back t empty}, events = front ++ .tested t empty :: back →
    (empty = true ↔ drained front = texts front)
  mixed : (∀ t, system.threads t = .outside []) → ∃ lines, system.logger.lines? = some lines ∧
    Interleaves (fun t => (requests t).filterMap Request.text?) (drained events ++ lines)
  goes_on : (∃ t, system.threads t ≠ .outside []) → ∃ event system', Step system event system'

/-- A thread that is not through can go on, or waits for one that can. -/
theorem Accounted.exists_step (h : Accounted requests events system) (ht : system.threads t ≠ .outside []) :
    ∃ event system', Step system event system' := by
  obtain ⟨lines, hlines, -⟩ := h.kept
  have hinside : ∀ {t request stage todo}, system.threads t = .inside request stage todo →
      ∃ event system', Step system event system' := by
    intro t request stage todo hthread
    cases stage with
    | fresh =>
      cases request with
      | finish delivery record => exact ⟨_, _, .pushes hthread⟩
      | drain => exact ⟨_, _, .takes hthread rfl hlines⟩
      | drainToConsole => exact ⟨_, _, .takes hthread rfl hlines⟩
      | count => exact ⟨_, _, .counts hthread hlines⟩
      | isEmpty => exact ⟨_, _, .tests hthread hlines⟩
    | copied => exact ⟨_, _, .clears hthread⟩
    | done => exact ⟨_, _, .unlocks hthread⟩
  cases hthread : system.threads t with
  | inside request stage todo => exact hinside hthread
  | outside todo =>
    cases todo with
    | nil => exact absurd hthread ht
    | cons request todo =>
      cases hfree : system.holder with
      | none => exact ⟨_, _, .locks hthread hfree⟩
      | some other =>
        have hin := (h.held other).1 hfree
        cases hother : system.threads other with
        | inside request stage todo => exact hinside hother
        | outside todo =>
          rw [hother] at hin
          cases hin

/-- In every run nothing is lost and nothing comes twice. -/
theorem Run.lossless (h : Run requests events system) : Lossless requests events system where
  kept hfree := by
    obtain ⟨lines, hlines, hkept⟩ := h.accounted.kept
    rw [isCopying_of_free hfree] at hkept
    exact ⟨lines, hlines, hkept⟩
  ordered hfree := by
    have hdrains := h.accounted.drains
    rw [openDrain_of_free hfree] at hdrains
    simpa using hdrains.symm
  submitted := h.accounted.submitted
  shown hmem := by
    obtain ⟨front, back, hevents⟩ := List.append_of_mem hmem
    obtain ⟨before, after, -, hstep, -⟩ := h.split hevents
    cases hstep with
    | takes => exact Request.shown_eq ..
  counted hevents := by
    obtain ⟨before, after, hrun, hstep, -⟩ := h.split hevents
    cases hstep with
    | counts hthread hlines => rw [← (Run.accounted hrun).lines_eq hthread hlines, List.length_append]
  tested hevents := by
    obtain ⟨before, after, hrun, hstep, -⟩ := h.split hevents
    cases hstep with
    | tests hthread hlines => simp [← (Run.accounted hrun).lines_eq hthread hlines]
  mixed ht := by
    have hfree := h.accounted.held.holder_eq_none fun t => by rw [ht]; rfl
    obtain ⟨lines, hlines, hkept⟩ := h.accounted.kept
    rw [isCopying_of_free hfree] at hkept
    refine ⟨lines, hlines, pushed events, hkept.symm, fun t => ?_⟩
    have hsubmitted := h.accounted.submitted t
    rwa [ht, Thread.texts, List.filterMap_nil, List.append_nil] at hsubmitted
  goes_on := fun ⟨_, ht⟩ => h.accounted.exists_step ht

/-- One thread submits a text and asks how many there are, and another drains between the two and submits a text of its own. -/
theorem lossless_of_two : ∃ events system,
    Run (fun t : Fin 2 => if t = 0 then [.finish .immediate ⟨["a"], .info⟩, .count]
      else [.drain, .finish .awaited ⟨["b"], .info⟩]) events system ∧
      (∀ t, system.threads t = .outside []) ∧ drained events = ["a"] ∧ system.logger = .memory ["b"] ∧
      drained events ++ ["b"] = texts events := by
  have hsubmitted := (((Steps.nil : Run (fun t : Fin 2 => if t = 0 then [.finish .immediate ⟨["a"], .info⟩, .count]
      else [.drain, .finish .awaited ⟨["b"], .info⟩]) _ _).snoc (.locks (t := 0) rfl rfl)).snoc
      (.pushes (t := 0) rfl)).snoc (.unlocks (t := 0) rfl)
  have hdrained := (((hsubmitted.snoc (.locks (t := 1) rfl rfl)).snoc (.takes (t := 1) rfl rfl rfl)).snoc
    (.clears (t := 1) rfl)).snoc (.unlocks (t := 1) rfl)
  have hcounted := ((hdrained.snoc (.locks (t := 0) rfl rfl)).snoc (.counts (t := 0) rfl rfl)).snoc
    (.unlocks (t := 0) rfl)
  have hrun := ((hcounted.snoc (.locks (t := 1) rfl rfl)).snoc (.pushes (t := 1) rfl)).snoc (.unlocks (t := 1) rfl)
  refine ⟨_, _, hrun, fun | 0 => rfl | 1 => rfl, rfl, rfl, ?_⟩
  obtain ⟨lines, hlines, hkept⟩ := (Run.lossless hrun).kept rfl
  cases hlines
  exact hkept

end System

end PrivateLog.Sharing
