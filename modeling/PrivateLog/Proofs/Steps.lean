/-!
# Steps one after another

The steps that the parties of a system take, in any order, and the row of events that they leave. `Steps.split` cuts a row of
steps at one of its events, and `Steps.append` puts two rows together.
-/

namespace PrivateLog

variable {σ ε : Type} {step : σ → ε → σ → Prop} {start state state' : σ} {events front back : List ε} {event : ε}

/-- Steps lead from a state to another, with what can be seen of each. -/
inductive Steps (step : σ → ε → σ → Prop) (start : σ) : List ε → σ → Prop where
  | nil : Steps step start [] start
  | snoc {events : List ε} {event : ε} {state state' : σ} :
      Steps step start events state → step state event state' → Steps step start (events ++ [event]) state'

namespace Steps

/-- More steps behind some. -/
theorem append (h : Steps step start front state) (h' : Steps step state back state') :
    Steps step start (front ++ back) state' := by
  induction h' with
  | nil => rwa [List.append_nil]
  | snoc _ hs ih =>
    rw [← List.append_assoc]
    exact ih.snoc hs

/-- Every event is that of a step, with steps in front of it and steps behind. -/
theorem split (h : Steps step start events state) (hevents : events = front ++ event :: back) :
    ∃ before after, Steps step start front before ∧ step before event after ∧ Steps step after back state := by
  induction h generalizing back with
  | nil => simp at hevents
  | @snoc all last before after hrun hstep ih =>
    rcases List.eq_nil_or_concat back with rfl | ⟨rest, other, rfl⟩
    · obtain ⟨rfl, hevent⟩ := List.append_inj' hevents rfl
      obtain rfl := List.singleton_inj.1 hevent
      exact ⟨before, after, hrun, hstep, .nil⟩
    · rw [List.concat_eq_append, ← List.cons_append, ← List.append_assoc] at hevents
      obtain ⟨hall, hlast⟩ := List.append_inj' hevents rfl
      obtain rfl := List.singleton_inj.1 hlast
      obtain ⟨first, second, hfront, hmiddle, hrest⟩ := ih hall
      refine ⟨first, second, hfront, hmiddle, ?_⟩
      rw [List.concat_eq_append]
      exact hrest.snoc hstep

end Steps

end PrivateLog
