import PrivateLog.Proofs.Value.Forms

/-!
# Values that redaction does not tell apart

Two values are alike if they have the same shape and differ only in what redaction withholds: wide integers, floats, texts,
and the contents of the debugging and display wrappers. Small values agree, a declassified content shows the same in full,
and references do not count. `redacted_eq_of_alike` says that alike values are redacted to the same writes.
-/

namespace PrivateLog.Value

/-- The values have the same shape and differ only in what redaction withholds. -/
inductive Alike : Value → Value → Prop where
  | small (n : Int) : Alike (.small n) (.small n)
  | bool (b : Bool) : Alike (.bool b) (.bool b)
  | char (c : Char) : Alike (.char c) (.char c)
  | wide (m n : Int) : Alike (.wide m) (.wide n)
  | float (f g : Decimal.BinaryFormat) (a b : Nat) : Alike (.float f a) (.float g b)
  | text (s t : String) : Alike (.text s) (.text t)
  | debugged (v w : Value) : Alike (.debugged v) (.debugged w)
  | displayed (v w : Value) : Alike (.displayed v) (.displayed w)
  | declassified {v w : Value} : v.full = w.full → Alike (.declassified v) (.declassified w)
  | absent : Alike .absent .absent
  | present {v w : Value} : Alike v w → Alike (.present v) (.present w)
  | list {vs ws : List Value} : vs.length = ws.length →
      (∀ (i : Nat) (v w : Value), vs[i]? = some v → ws[i]? = some w → Alike v w) → Alike (.list vs) (.list ws)
  | reference_left {v w : Value} : Alike v w → Alike (.reference v) w
  | reference_right {v w : Value} : Alike v w → Alike v (.reference w)

/-- Alike values are redacted to the same writes. -/
theorem redacted_eq_of_alike {v w : Value} (h : Alike v w) : v.redacted = w.redacted := by
  induction h with
  | small | bool | char | wide | float | text | debugged | displayed | absent => rfl
  | declassified hfull => exact hfull
  | present _ ih => exact congrArg presentWrites ih
  | @list vs ws hl _ ih =>
    -- The elements are redacted pairwise, so the lists of their writes agree place by place.
    have hall : vs.map redacted = ws.map redacted := by
      apply List.ext_getElem
      · rw [List.length_map, List.length_map, hl]
      · intro i hv hw
        rw [List.length_map] at hv hw
        rw [List.getElem_map, List.getElem_map]
        exact ih i _ _ (List.getElem?_eq_getElem hv) (List.getElem?_eq_getElem hw)
    rw [redacted, redacted, redactedAll_eq_map, redactedAll_eq_map, hall]
  | reference_left _ ih => exact ih
  | reference_right _ ih => exact ih

end PrivateLog.Value
