import PrivateLog.Proofs.Expression.Derivation
import PrivateLog.Proofs.Expression.Productions
import Mathlib.Tactic.SplitIfs

/-!
# The reader's fuel is enough

Whatever is derived is read: the fuel that the reader is given for the tokens does not run out (`readFrom_eq_some_iff`). The
number of steps is bounded by the cost of the symbols and 256 for each token that is taken (`Reads.exists_steps`). One
remark on the bound for operators makes it inductive: where an operator is ahead, the bound is that of the operator
taken (`costAhead`), which is what makes up for a `climb`.
-/

namespace PrivateLog.Expression

/-- The cost of symbols where the tokens ahead are known. -/
def costAhead (symbols : List Symbol) (found : Form) (tokens : List Token) : Int :=
  match symbols with
  | .goal (.value (.operators floor struct)) :: rest =>
    if operatorProduction floor struct found tokens = some [] then 1 + cost rest else -200 + cost rest
  | symbols => cost symbols

/-- It is not more than the cost in general. -/
theorem costAhead_le (symbols : List Symbol) (found : Form) (tokens : List Token) :
    costAhead symbols found tokens ≤ cost symbols := by
  unfold costAhead
  split
  · rename_i floor struct rest
    have hcost : cost (.goal (.value (.operators floor struct)) :: rest) = 1 + cost rest := rfl
    rw [hcost]
    split <;> omega
  · exact Int.le_refl _

variable {leftovers : Leftovers} {symbols : List Symbol} {found last : Form} {tokens taken left : List Token}

/-- A production costs less than its goal, apart from what goes on with an operator. -/
theorem cost_production_le {goal : Goal} {production : List Symbol} (h : goal.production found tokens = some production)
    (hgoal : goal.climbs = false) : 1 + cost production ≤ goal.cost := by
  have hall := all_fits_production found tokens goal
  rw [h, Option.all_some, Goal.fits, hgoal, Bool.false_or, Bool.and_eq_true] at hall
  exact of_decide_eq_true hall.2

/-- An operator that is ahead pays for what stands behind it. -/
theorem cost_operatorProduction_le {floor : Precedence} {struct : Bool} {production : List Symbol}
    (h : operatorProduction floor struct found tokens = some production) (hne : production ≠ []) :
    1 + cost production ≤ -200 := by
  have hall := all_fits_operatorProduction found tokens floor struct
  rw [h, Option.all_some, Bool.and_eq_true, pays, Bool.or_eq_true, decide_eq_true_eq, decide_eq_true_eq] at hall
  exact hall.2.resolve_left hne

/-- Where `climb` goes on an operator is ahead. -/
theorem operatorProduction_ne_nil {floor next : Precedence} {struct : Bool} (hnext : precedenceAhead tokens = next)
    (hfloor : floor.rank < next.rank ∨ next = .assign) (hfound : found ≠ .range) :
    operatorProduction next struct found tokens ≠ some [] := by
  have hlowest : next ≠ .lowest := by
    rintro rfl
    rcases hfloor with h | h
    · exact Nat.not_lt_zero _ h
    · cases h
  unfold operatorProduction precedenceAhead at *
  rw [if_neg hfound]
  cases hop : binaryOperator? tokens with
  | some entry =>
    obtain ⟨text, precedence⟩ := entry
    rw [hop] at hnext
    obtain rfl : precedence = next := hnext
    simp only [Nat.lt_irrefl, if_false]
    split_ifs <;> simp
  | none =>
    rw [hop] at hnext
    dsimp only at hnext ⊢
    split_ifs at hnext with hassign hrange hcast
    · subst hnext
      simp [hassign]
    · subst hnext
      simp only [hassign, hrange]
      split_ifs <;> simp_all
    · subst hnext
      simp [hassign, hrange, hcast]
    · exact absurd hnext.symm hlowest

/-- A goal costs more than what stands for it, wherever that is read. -/
theorem costAhead_production_lt {goal : Goal} {production : List Symbol}
    (h : goal.production found tokens = some production) :
    costAhead (production ++ symbols) found tokens < costAhead (.goal goal :: symbols) found tokens := by
  have hle := costAhead_le (production ++ symbols) found tokens
  rw [cost_append] at hle
  cases hclimbs : goal.climbs with
  | true =>
    cases goal with
    | value goal =>
      cases goal with
      | climb floor struct =>
        have hgoal : costAhead (.goal (.value (.climb floor struct)) :: symbols) found tokens = 1 + cost symbols := rfl
        rw [hgoal]
        rw [Goal.production, valueProduction] at h
        split_ifs at h with hfound hfloor
        · cases h
          rw [cost] at hle
          omega
        · cases h
          simp only [Bool.or_eq_true, Bool.and_eq_true, decide_eq_true_eq] at hfloor
          have hne := @operatorProduction_ne_nil found tokens floor _ struct rfl (hfloor.imp_right And.right) hfound
          have hrest : cost (.goal (.value (.climb floor struct)) :: symbols) = 1 + cost symbols := rfl
          rw [List.cons_append, List.cons_append, List.nil_append, costAhead, if_neg hne, hrest]
          omega
        · cases h
          rw [cost] at hle
          omega
      | _ => cases hclimbs
    | _ => cases hclimbs
  | false =>
    have hcost := cost_production_le h hclimbs
    by_cases hoperators : ∃ floor struct, goal = .value (.operators floor struct)
    · obtain ⟨floor, struct, rfl⟩ := hoperators
      have hgoal : (Goal.value (.operators floor struct)).cost = 1 := rfl
      rw [Goal.production, valueProduction] at h
      rw [costAhead.eq_def (.goal (.value (.operators floor struct)) :: symbols)]
      dsimp only
      split_ifs with hnil
      · omega
      · have hpays := cost_operatorProduction_le h (fun heq => hnil (heq ▸ h))
        omega
    · have hgoal : costAhead (.goal goal :: symbols) found tokens = goal.cost + cost symbols := by
        unfold costAhead
        split
        · rename_i heq
          cases heq
          exact absurd ⟨_, _, rfl⟩ hoperators
        · rfl
      omega

/-- The symbols are spelt, and so are those of a production. -/
theorem all_isSpelt_production {goal : Goal} {production : List Symbol} (h : goal.production found tokens = some production) :
    production.all Symbol.isSpelt = true := by
  have hall := all_fits_production found tokens goal
  rw [h, Option.all_some, Goal.fits, Bool.and_eq_true, Bool.and_eq_true] at hall
  exact hall.1.1

/-- A terminal takes a token, and pays for it. -/
theorem costAhead_terminal {symbol : Symbol} {first rest : List Token} (hspelt : symbol.isSpelt = true)
    (h : takeTerminal? symbol tokens = some (first, rest)) :
    costAhead (symbol :: symbols) found tokens = -255 + cost symbols ∧ Token.sizeAll rest < Token.sizeAll tokens := by
  obtain ⟨used, rfl, hmore⟩ := exists_used_of_takeTerminal? h
  have hne : used ≠ [] := by
    rintro rfl
    have hnone := hmore []
    cases symbol with
    | operator text =>
      rw [Symbol.isSpelt, Bool.and_eq_true, decide_eq_true_eq] at hspelt
      have hcharacters : text.toList ≠ [] := by simpa using hspelt.1
      obtain ⟨c, cs, htext⟩ := List.exists_cons_of_ne_nil hcharacters
      simp [takeTerminal?, isOperator, htext, isSpelled] at hnone
    | _ => cases hnone
  obtain ⟨token, used, rfl⟩ := List.exists_cons_of_ne_nil hne
  have hsize := Token.size_pos token
  refine ⟨?_, by rw [Token.sizeAll_append, Token.sizeAll]; omega⟩
  cases symbol with
  | goal | form | group => cases h
  | _ => rfl

/-- Whatever is derived is read in a number of steps that the cost bounds. -/
theorem Reads.exists_steps (h : Reads leftovers symbols found tokens taken last left)
    (hspelt : symbols.all Symbol.isSpelt = true) :
    ∃ steps : Nat, steps + 256 * (Token.sizeAll left : Int) ≤ costAhead symbols found tokens + 256 * Token.sizeAll tokens ∧
      ∀ fuel, steps < fuel → read leftovers fuel symbols found tokens = some (taken, last, left) := by
  induction h with
  | @nil found tokens =>
    refine ⟨0, by simp [costAhead, cost], fun fuel hfuel => ?_⟩
    obtain ⟨fuel, rfl⟩ := Nat.exists_eq_add_one.2 hfuel
    rfl
  | @form next found last symbols tokens taken left _ ih =>
    obtain ⟨steps, hsteps, hread⟩ := ih hspelt
    have hahead : costAhead (.form next :: symbols) found tokens = 1 + cost symbols := rfl
    have hle := costAhead_le symbols next tokens
    refine ⟨steps + 1, by omega, fun fuel hfuel => ?_⟩
    obtain ⟨fuel, rfl⟩ := Nat.exists_eq_add_of_lt hfuel
    exact hread _ (by omega)
  | @goal goal production symbols found last tokens taken left hp _ ih =>
    have hall : (production ++ symbols).all Symbol.isSpelt = true := by
      rw [List.all_append, all_isSpelt_production hp]
      exact hspelt
    obtain ⟨steps, hsteps, hread⟩ := ih hall
    have hlt := @costAhead_production_lt symbols _ _ _ _ hp
    refine ⟨steps + 1, by omega, fun fuel hfuel => ?_⟩
    obtain ⟨fuel, rfl⟩ := Nat.exists_eq_add_of_lt hfuel
    exact Option.bind_eq_some_iff.2 ⟨production, hp, hread _ (by omega)⟩
  | @group delimiter goal symbols found innerLast last body inner innerLeft rest taken left _ hleft _ ihInner ihOuter =>
    obtain ⟨inside, hinside, hreadInner⟩ := ihInner rfl
    obtain ⟨outside, houtside, hreadOuter⟩ := ihOuter hspelt
    have hahead : costAhead (.group delimiter goal :: symbols) found (.group delimiter body :: rest) =
        goal.cost - 255 + cost symbols := rfl
    have hinner := costAhead_le [.goal goal] .plain body
    have houter := costAhead_le symbols found rest
    have hgoal : cost [.goal goal] = goal.cost + 0 := rfl
    have hsize : Token.sizeAll (.group delimiter body :: rest) = 1 + Token.sizeAll body + Token.sizeAll rest := by
      rw [Token.sizeAll, Token.size]
    refine ⟨max inside outside + 1, by omega, fun fuel hfuel => ?_⟩
    obtain ⟨fuel, rfl⟩ := Nat.exists_eq_add_of_lt hfuel
    have hi := hreadInner (max inside outside + 1 + fuel) (by omega)
    have ho := hreadOuter (max inside outside + 1 + fuel) (by omega)
    simp [read, hi, ho, guard, hleft]
  | @terminal symbol symbols found last tokens first rest taken left ht _ ih =>
    rw [List.all_cons, Bool.and_eq_true] at hspelt
    obtain ⟨steps, hsteps, hread⟩ := ih hspelt.2
    obtain ⟨hcost, hmore⟩ := @costAhead_terminal symbols found _ _ _ _ hspelt.1 ht
    have hle := costAhead_le symbols found rest
    refine ⟨steps + 1, by omega, fun fuel hfuel => ?_⟩
    obtain ⟨fuel, rfl⟩ := Nat.exists_eq_add_of_lt hfuel
    have hrest := hread (steps + 1 + fuel) (by omega)
    cases symbol with
    | goal | form | group => cases ht
    | _ => exact Option.bind_eq_some_iff.2 ⟨_, ht, Option.bind_eq_some_iff.2 ⟨_, hrest, rfl⟩⟩

/-- Reading an expression from the beginning of some tokens is deriving it. -/
theorem readFrom_eq_some_iff :
    readFrom leftovers tokens = some (taken, left) ↔
      ∃ last, Reads leftovers [Symbol.expression] .plain tokens taken last left := by
  rw [readFrom, Option.map_eq_map, Option.map_eq_some_iff]
  constructor
  · rintro ⟨⟨taken', last, left'⟩, hread, heq⟩
    cases heq
    exact ⟨last, reads_of_read hread⟩
  · rintro ⟨last, h⟩
    obtain ⟨steps, hsteps, hread⟩ := h.exists_steps rfl
    have hcost : costAhead [Symbol.expression] .plain tokens = -200 := rfl
    exact ⟨(taken, last, left), hread _ (by rw [enough]; omega), rfl⟩

/-- So is reading an expression that the tokens are from end to end. -/
theorem ofTokens?_eq_some_iff :
    ofTokens? tokens = some taken ↔ ∃ last, Reads .refused [Symbol.expression] .plain tokens taken last [] := by
  rw [← readFrom_eq_some_iff, ofTokens?]
  constructor
  · intro h
    split at h
    · rename_i heq
      cases h
      exact heq
    · cases h
  · intro h
    rw [h]

/-- What is read while nothing may be left over in brackets is read in the same way if something may. -/
theorem readFrom_kept_of_refused (h : readFrom .refused tokens = some (taken, left)) :
    readFrom .kept tokens = some (taken, left) := by
  obtain ⟨last, hreads⟩ := readFrom_eq_some_iff.1 h
  exact readFrom_eq_some_iff.2 ⟨last, hreads.kept⟩

end PrivateLog.Expression
