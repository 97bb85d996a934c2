import PrivateLog.Proofs.Format.Pieces
import PrivateLog.Proofs.Value.Alike
import PrivateLog.Record

/-!
# Non-interference

What redaction withholds has no influence on a record. Two lists of arguments are indistinct for some markers if they agree
where a marker is public and are alike everywhere else; then they are written alike (`writes_eq_of_indistinct`). A format
that cannot be rendered is noted without looking at the arguments at all, beyond their number. `format_eq_of_indistinct` puts
the two together: no record, whatever its format, tells such arguments apart.
-/

namespace PrivateLog

/-- The arguments agree where the marker at their place is public, and are alike everywhere else. -/
def Format.Indistinct (policies : List DisplayPolicy) (as bs : List Value) : Prop :=
  ∀ (i : Nat) (policy : DisplayPolicy) (a b : Value), policies[i]? = some policy → as[i]? = some a → bs[i]? = some b →
    if policy = .shown then a = b else a.Alike b

namespace Format

/-- No arguments are indistinct from no arguments. -/
theorem Indistinct.nil : Indistinct [] [] [] := by
  intro i policy a b hp
  cases hp

/-- Arguments are indistinct if the first ones are, and those behind them. -/
theorem Indistinct.cons {policy : DisplayPolicy} {policies : List DisplayPolicy} {a b : Value} {as bs : List Value}
    (hab : if policy = .shown then a = b else a.Alike b) (h : Indistinct policies as bs) :
    Indistinct (policy :: policies) (a :: as) (b :: bs) := by
  intro i p v w hp hv hw
  cases i with
  | zero =>
    cases hp
    cases hv
    cases hw
    exact hab
  | succ i => exact h i p v w hp hv hw

/-- Arguments behind indistinct ones are indistinct. -/
theorem Indistinct.tail {policy : DisplayPolicy} {policies : List DisplayPolicy} {a b : Value} {as bs : List Value}
    (h : Indistinct (policy :: policies) (a :: as) (b :: bs)) : Indistinct policies as bs := by
  intro i p v w hp hv hw
  exact h (i + 1) p v w hp hv hw

/-- Without revealing, an argument is written like one it cannot be told apart from. -/
theorem writes_eq_of_indistinct_cons {policy : DisplayPolicy} {policies : List DisplayPolicy} {a b : Value}
    {as bs : List Value} (h : Indistinct (policy :: policies) (a :: as) (b :: bs)) :
    Loggable.writes a policy false = Loggable.writes b policy false := by
  have hab := h 0 policy a b rfl rfl rfl
  by_cases hp : policy = .shown
  · rw [if_pos hp] at hab
    rw [hab]
  · rw [if_neg hp] at hab
    have hr : Loggable.redacted a = Loggable.redacted b := Value.redacted_eq_of_alike hab
    simp [Loggable.writes, hp, hr]

/-- Without revealing, indistinct arguments are written alike. -/
theorem writes_eq_of_indistinct {pieces : List Piece} {as bs : List Value} (hl : as.length = bs.length)
    (h : Indistinct (policies pieces) as bs) : writes false pieces as = writes false pieces bs := by
  induction pieces generalizing as bs with
  | nil => rfl
  | cons piece pieces ih =>
    cases piece with
    | literal text => exact congrArg (text :: ·) (ih hl h)
    | value policy =>
      cases as with
      | nil =>
        have hb : bs = [] := List.length_eq_zero_iff.1 hl.symm
        rw [hb]
      | cons a as =>
        cases bs with
        | nil => cases hl
        | cons b bs =>
          rw [writes, writes, writes_eq_of_indistinct_cons h, ih (Nat.succ.inj hl) h.tail]

/-- Without revealing, indistinct arguments have the same rendering or the same error. The arguments of a format that cannot
be rendered need not be indistinct. -/
theorem render_eq_of_indistinct {format : String} {as bs : List Value} (hl : as.length = bs.length)
    (h : ∀ pieces, parse format = .ok pieces → markerCount pieces = as.length → Indistinct (policies pieces) as bs) :
    render format as false = render format bs false := by
  unfold render
  cases hp : parse format with
  | error e => rfl
  | ok pieces =>
    rw [Outcome.ok_bind, Outcome.ok_bind]
    by_cases hc : markerCount pieces = as.length
    · rw [if_pos hc, if_pos (hc.trans hl), writes_eq_of_indistinct hl (h pieces hp hc)]
    · rw [if_neg hc, if_neg (fun hb => hc (hb.trans hl.symm)), hl]

end Format

namespace Record

/-- Redaction is non-interfering: with private values withheld, arguments that are equal at the public markers and alike at
the others leave the same record behind; and if the format cannot be rendered, so do any arguments of the same number. -/
theorem format_eq_of_indistinct (record : Record) (format : String) (as bs : List Value) (hl : as.length = bs.length)
    (h : ∀ pieces, Format.parse format = .ok pieces → Format.markerCount pieces = as.length →
      Format.Indistinct (Format.policies pieces) as bs) :
    (record.format format as false).parts = (record.format format bs false).parts ∧
      (record.format format as false).severity = (record.format format bs false).severity ∧
      (record.format format as false).text = (record.format format bs false).text := by
  have he : record.format format as false = record.format format bs false := by
    simp only [Record.format, Record.render, Format.render_eq_of_indistinct hl h]
  rw [he]
  exact ⟨rfl, rfl, rfl⟩

/-- Two lists with the same small number and different names, one of them behind a reference. -/
theorem format_eq_of_indistinct_names :
    Format.Indistinct [.shown, .unmarked] [.text "job", .list [.small 1, .reference (.text "alice")]]
        [.text "job", .list [.small 1, .text "bob"]] ∧
      ((empty .info).format "%\x7bpublic\x7ds: %s"
          ([.text "job", .list [.small 1, .reference (.text "alice")]] : List Value) false).parts =
        ((empty .info).format "%\x7bpublic\x7ds: %s"
          ([.text "job", .list [.small 1, .text "bob"]] : List Value) false).parts := by
  have hlist : Value.Alike (.list [.small 1, .reference (.text "alice")]) (.list [.small 1, .text "bob"]) := by
    refine .list rfl fun i v w hv hw => ?_
    match i with
    | 0 =>
      cases hv
      cases hw
      exact .small 1
    | 1 =>
      cases hv
      cases hw
      exact .reference_left (.text "alice" "bob")
    | i + 2 => cases hv
  have h : Format.Indistinct [.shown, .unmarked] [.text "job", .list [.small 1, .reference (.text "alice")]]
      [.text "job", .list [.small 1, .text "bob"]] :=
    .cons rfl (.cons hlist .nil)
  have hparse : Format.parse "%\x7bpublic\x7ds: %s" = .ok [.value .shown, .literal ": ", .value .unmarked] := rfl
  refine ⟨h, And.left (format_eq_of_indistinct _ _ _ _ ?_ ?_)⟩
  · rfl
  · intro pieces hp _
    rw [hparse] at hp
    cases hp
    exact h

end Record

end PrivateLog
