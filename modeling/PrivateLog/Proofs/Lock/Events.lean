import PrivateLog.Proofs.Lock.Visits

/-!
# What the events tell

Which visits began and which came to an end, read from the events of a run alone: the writers who entered (`acquired`) and
those of them who left (`completed`), both in the order in which they entered, the visits that one thread began (`begun`),
and those that are not over yet (`Open`). `serial` is what some visits make of the data one after another.
-/

namespace PrivateLog.Lock

variable {T α : Type}

/-- The visits of writers, in the order in which they entered. -/
def acquired : List (Event T α) → List (Visit α)
  | [] => []
  | .entered _ visit :: events => if visit.mode = .exclusive then visit :: acquired events else acquired events
  | _ :: events => acquired events

/-- The data after some visits, one after another. -/
def serial (visits : List (Visit α)) (data : α) : α :=
  visits.foldl (fun data visit => visit.program.run data) data

/-- An event that neither begins nor ends a visit. -/
def Event.isQuiet : Event T α → Bool
  | .entered _ _ => false
  | .left _ => false
  | _ => true

/-- A visit more is made behind the others. -/
theorem serial_append (visits visits' : List (Visit α)) (data : α) :
    serial (visits ++ visits') data = serial visits' (serial visits data) :=
  List.foldl_append

/-- The writers that enter first come first. -/
theorem acquired_append (events events' : List (Event T α)) :
    acquired (events ++ events') = acquired events ++ acquired events' := by
  induction events with
  | nil => rfl
  | cons event events ih =>
    cases event with
    | entered t visit => by_cases hm : visit.mode = .exclusive <;> simp [acquired, hm, ih]
    | waited | failed | loaded | stored | left => exact ih

/-- With a quiet event no writer enters. -/
theorem acquired_of_isQuiet {event : Event T α} (h : event.isQuiet = true) : acquired [event] = [] := by
  cases event <;> first | rfl | cases h

variable [DecidableEq T]

/-- Whether the thread ends its visit. -/
def Event.isLeft (t : T) : Event T α → Bool
  | .left other => other = t
  | _ => false

/-- The visit that the thread begins. -/
def Event.begun? (t : T) : Event T α → Option (Visit α)
  | .entered other visit => if other = t then some visit else none
  | _ => none

/-- The visits of writers that came to an end, in the order in which they entered. -/
def completed : List (Event T α) → List (Visit α)
  | [] => []
  | .entered t visit :: events =>
    if visit.mode = .exclusive ∧ events.any (·.isLeft t) then visit :: completed events else completed events
  | _ :: events => completed events

/-- The visits that a thread began, in order. -/
def begun (t : T) (events : List (Event T α)) : List (Visit α) :=
  events.filterMap (·.begun? t)

/-- The thread began the visit behind the events of `front`, and has not ended it. -/
def Open (events front : List (Event T α)) (t : T) (visit : Visit α) : Prop :=
  ∃ back, events = front ++ .entered t visit :: back ∧ ∀ event ∈ back, event.isLeft t = false

/-- With a quiet event no visit ends. -/
theorem Event.isLeft_of_isQuiet {event : Event T α} (h : event.isQuiet = true) (t : T) : event.isLeft t = false := by
  cases event <;> first | rfl | cases h

/-- Only visits of writers that entered come to an end. -/
theorem completed_sublist_acquired (events : List (Event T α)) : (completed events).Sublist (acquired events) := by
  induction events with
  | nil => exact List.Sublist.refl _
  | cons event events ih =>
    cases event with
    | entered t visit =>
      by_cases hm : visit.mode = .exclusive
      · by_cases hl : events.any (·.isLeft t) = true
        · simpa only [completed, acquired, hm, hl, and_self, if_true] using ih.cons_cons visit
        · simpa only [completed, acquired, hm, hl, Bool.false_eq_true, and_false, if_false, if_true] using ih.cons visit
      · simpa only [completed, acquired, hm, false_and, if_false] using ih
    | waited | failed | loaded | stored | left => exact ih

/-- An event with which no visit ends completes nothing. -/
theorem completed_snoc {event : Event T α} (h : ∀ t, event.isLeft t = false) (events : List (Event T α)) :
    completed (events ++ [event]) = completed events := by
  induction events with
  | nil => cases event <;> simp [completed]
  | cons first events ih =>
    cases first with
    | entered t visit => simp [completed, ih, h]
    | waited | failed | loaded | stored | left => exact ih

/-- Once all writers are through, it does not matter to them what follows. -/
theorem completed_append {events : List (Event T α)} (h : completed events = acquired events)
    (events' : List (Event T α)) : completed (events ++ events') = acquired events ++ completed events' := by
  induction events with
  | nil => rfl
  | cons event events ih =>
    cases event with
    | entered t visit =>
      by_cases hm : visit.mode = .exclusive
      · by_cases hl : events.any (·.isLeft t) = true
        · simp only [completed, acquired, hm, hl, and_self, if_true, List.cons.injEq, true_and] at h
          simp [completed, acquired, hm, ih h, List.any_append, hl]
        · -- a writer who is still inside is missing from those who are through
          simp only [completed, acquired, hm, hl, Bool.false_eq_true, and_false, if_false, if_true] at h
          have hlength := (completed_sublist_acquired events).length_le
          rw [h, List.length_cons] at hlength
          omega
      · simp only [completed, acquired, hm, false_and, if_false] at h
        simp [completed, acquired, hm, ih h]
    | waited | failed | loaded | stored | left => exact ih h

/-- After one more event a visit is open that begins with it, or that was open and does not end with it. -/
theorem open_snoc_iff {events front : List (Event T α)} {event : Event T α} {t : T} {visit : Visit α} :
    Open (events ++ [event]) front t visit ↔
      (event = .entered t visit ∧ front = events) ∨ (Open events front t visit ∧ event.isLeft t = false) := by
  constructor
  · rintro ⟨back, hback, hopen⟩
    rcases List.eq_nil_or_concat back with rfl | ⟨back, last, rfl⟩
    · obtain ⟨rfl, hevent⟩ := List.append_inj' hback rfl
      exact Or.inl ⟨List.singleton_inj.1 hevent, rfl⟩
    · rw [List.concat_eq_append] at hback hopen
      rw [← List.cons_append, ← List.append_assoc] at hback
      obtain ⟨rfl, hlast⟩ := List.append_inj' hback rfl
      obtain rfl := List.singleton_inj.1 hlast
      refine Or.inr ⟨⟨back, rfl, fun event hm => hopen event (List.mem_append_left _ hm)⟩, ?_⟩
      exact hopen event (List.mem_append_right _ List.mem_cons_self)
  · rintro (⟨rfl, rfl⟩ | ⟨⟨back, rfl, hopen⟩, hevent⟩)
    · exact ⟨[], rfl, fun _ h => absurd h List.not_mem_nil⟩
    · refine ⟨back ++ [event], by simp, ?_⟩
      intro other hm
      rcases List.mem_append.1 hm with hm | hm
      · exact hopen other hm
      · rw [List.mem_singleton.1 hm]
        exact hevent

/-- A writer who leaves as the last one to enter was, of all who entered, the only one not through. -/
theorem completed_left {front back : List (Event T α)} {t : T} {visit : Visit α} (hm : visit.mode = .exclusive)
    (hfront : completed front = acquired front) (hback : acquired back = []) :
    completed (front ++ .entered t visit :: back ++ [.left t]) = acquired front ++ [visit] := by
  have hrest : completed (back ++ [.left t]) = [] := by
    have hsub := completed_sublist_acquired (back ++ [.left t])
    rw [acquired_append, hback] at hsub
    exact List.sublist_nil.1 hsub
  rw [List.append_assoc, completed_append hfront, List.cons_append]
  simp [completed, hm, hrest, Event.isLeft]

end PrivateLog.Lock
