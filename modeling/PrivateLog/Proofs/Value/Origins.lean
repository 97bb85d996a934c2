import PrivateLog.Proofs.Value.Forms
import Mathlib.Logic.Basic

/-!
# Where the writes of a value come from

Each write of a value belongs to its frame, the brackets, commas and names around what it holds, or is that of a leaf
(`origins`). The frame does not depend on the form, and a leaf is one write in either form, so a value has as many writes
redacted as in full, and they can be compared place by place. `redacted_pointwise` says that they differ only at leaves of a
private kind with no declassified value around them, and that those read `<private>`.
-/

namespace PrivateLog.Value

/-! ## Leaves -/

/-- Whether a value is a leaf: it holds no other value, or shows what it holds as one text. -/
def isLeaf : Value → Bool
  | .reference _ | .present _ | .absent | .list _ | .declassified _ => false
  | _ => true

/-- Whether a value is a leaf of a private kind. -/
def isPrivate : Value → Bool
  | .wide _ | .float _ _ | .text _ | .debugged _ | .displayed _ => true
  | _ => false

/-- The leaf is in the value, with no declassified value around it. -/
inductive Exposed (leaf : Value) : Value → Prop where
  | self : leaf.isLeaf = true → Exposed leaf leaf
  | reference {value : Value} : Exposed leaf value → Exposed leaf (.reference value)
  | present {value : Value} : Exposed leaf value → Exposed leaf (.present value)
  | list {value : Value} {values : List Value} : value ∈ values → Exposed leaf value → Exposed leaf (.list values)

/-- A property holds of every value if it holds of the leaves and is passed on from what a value holds. -/
@[elab_as_elim]
theorem nested_induction {P : Value → Prop} (leaf : ∀ value, value.isLeaf = true → P value)
    (reference : ∀ value, P value → P (.reference value)) (present : ∀ value, P value → P (.present value))
    (absent : P .absent) (list : ∀ values, (∀ value ∈ values, P value) → P (.list values))
    (declassified : ∀ value, P value → P (.declassified value)) (value : Value) : P value :=
  Value.rec (motive_1 := P) (motive_2 := fun values => ∀ value ∈ values, P value) (fun _ => leaf _ rfl) (fun _ => leaf _ rfl)
    (fun _ => leaf _ rfl) (fun _ => leaf _ rfl) (fun _ _ => leaf _ rfl) (fun _ => leaf _ rfl) reference present absent list
    declassified (fun _ _ => leaf _ rfl) (fun _ _ => leaf _ rfl) (fun _ h => absurd h List.not_mem_nil)
    (fun _ _ h hs => List.forall_mem_cons.2 ⟨h, hs⟩) value

/-! ## Origins -/

/-- What a write of a value belongs to: the frame, which has a text of its own, or a leaf, with a note whether it is
inside a declassified value. -/
inductive Origin where
  | frame (text : String)
  | leaf (value : Value) (inside : Bool)

mutual

/-- What the writes of a value belong to, in order. -/
def origins (inside : Bool) : Value → List Origin
  | .reference value => origins inside value
  | .present value => .frame "Some(" :: (origins inside value ++ [.frame ")"])
  | .absent => [.frame "None"]
  | .list values =>
    .frame "[" :: (((originsAll inside values).intersperse [.frame ", "]).flatten ++ [.frame "]"])
  | .declassified value => origins true value
  | value => [.leaf value inside]

/-- What the writes of some values belong to. -/
def originsAll (inside : Bool) : List Value → List (List Origin)
  | [] => []
  | value :: values => origins inside value :: originsAll inside values

end

/-- The text of a write in full. A leaf is one write, which is all that it shows. -/
def Origin.full : Origin → String
  | .frame written => written
  | .leaf value _ => String.join value.full

/-- The text of a write with private parts withheld. -/
def Origin.redacted : Origin → String
  | .frame written => written
  | .leaf value inside => if value.isPrivate && !inside then redactedText else String.join value.full

/-- The origins of some values are those of each. -/
theorem originsAll_eq_map (inside : Bool) (values : List Value) :
    originsAll inside values = values.map (origins inside) := by
  induction values with
  | nil => rfl
  | cons value values ih => rw [originsAll, ih, List.map_cons]

section
variable {leaf : Value} (h : leaf.isLeaf = true)
include h

/-- A leaf is one write in full. -/
theorem exists_full_of_isLeaf : ∃ text, leaf.full = [text] := by
  cases leaf with
  | reference | present | absent | list | declassified => cases h
  | _ => exact ⟨_, rfl⟩

/-- Redacted, it is the same write, or the text in the place of private ones. -/
theorem redacted_of_isLeaf : leaf.redacted = if leaf.isPrivate then [redactedText] else leaf.full := by
  cases leaf with
  | reference | present | absent | list | declassified => cases h
  | _ => rfl

/-- It is where its write comes from. -/
theorem origins_of_isLeaf (inside : Bool) : leaf.origins inside = [.leaf leaf inside] := by
  cases leaf with
  | reference | present | absent | list | declassified => cases h
  | _ => rfl

end

/-- The writes of a value in full are the full texts of their origins. -/
theorem full_eq_map (value : Value) (inside : Bool) : value.full = (value.origins inside).map Origin.full := by
  induction value using nested_induction generalizing inside with
  | leaf value h =>
    obtain ⟨text, htext⟩ := exists_full_of_isLeaf h
    rw [origins_of_isLeaf h, List.map_singleton, Origin.full, htext, String.join_cons, String.join_nil, String.append_empty]
  | reference value ih => exact ih inside
  | present value ih => rw [full, origins, presentWrites, ih inside, List.map_cons, List.map_append]; rfl
  | absent => rfl
  | list values ih =>
    have hall : values.map full = (values.map (origins inside)).map (·.map Origin.full) := by
      rw [List.map_map]
      exact List.map_congr_left fun value hm => ih value hm inside
    rw [full, origins, listWrites, fullAll_eq_map, originsAll_eq_map, List.map_cons, List.map_append,
      map_flatten_intersperse, hall]
    rfl
  | declassified value ih => exact ih true

/-- With private parts withheld they are the redacted texts of the same origins; what is declassified is written in full. -/
theorem map_redacted_origins (value : Value) (inside : Bool) :
    (value.origins inside).map Origin.redacted = form inside value := by
  induction value using nested_induction generalizing inside with
  | leaf value h =>
    obtain ⟨text, htext⟩ := exists_full_of_isLeaf h
    rw [form, redacted_of_isLeaf h, origins_of_isLeaf h, List.map_singleton, Origin.redacted, htext]
    cases inside <;> cases value.isPrivate <;> simp
  | reference value ih =>
    rw [origins, ih]
    cases inside <;> rfl
  | present value ih =>
    rw [origins, List.map_cons, List.map_append, ih]
    cases inside with
    | false => rw [form, form]; rfl
    | true => rfl
  | absent => cases inside <;> rfl
  | list values ih =>
    have hall : (values.map (origins inside)).map (·.map Origin.redacted) = values.map (form inside) := by
      rw [List.map_map]
      exact List.map_congr_left fun value hm => ih value hm inside
    rw [origins, originsAll_eq_map, List.map_cons, List.map_append, map_flatten_intersperse, hall, form_list]
    rfl
  | declassified value ih =>
    rw [origins, ih]
    cases inside <;> rfl

/-! ## Exposed leaves -/

/-- The leaves among the origins that are not inside a declassified value are the exposed ones. -/
theorem leaf_mem_origins_iff {value leaf : Value} {inside : Bool} :
    .leaf leaf false ∈ value.origins inside ↔ inside = false ∧ Exposed leaf value := by
  induction value using nested_induction generalizing inside with
  | leaf value h =>
    rw [origins_of_isLeaf h, List.mem_singleton, Origin.leaf.injEq]
    constructor
    · rintro ⟨rfl, hinside⟩
      exact ⟨hinside.symm, .self h⟩
    · rintro ⟨hinside, hexposed⟩
      cases hexposed with
      | self => exact ⟨rfl, hinside.symm⟩
      | _ => cases h
  | reference value ih =>
    rw [origins, ih]
    refine and_congr_right fun _ => ⟨.reference, fun h => ?_⟩
    cases h with
    | self h => cases h
    | reference h => exact h
  | present value ih =>
    have hmem : Origin.leaf leaf false ∈ origins inside (.present value) ↔ .leaf leaf false ∈ value.origins inside := by
      simp [origins]
    rw [hmem, ih]
    refine and_congr_right fun _ => ⟨.present, fun h => ?_⟩
    cases h with
    | self h => cases h
    | present h => exact h
  | absent =>
    have hexposed : ¬Exposed leaf .absent := by
      rintro (h | _)
      cases h
    simp [origins, hexposed]
  | list values ih =>
    have hmem : Origin.leaf leaf false ∈ origins inside (.list values) ↔
        ∃ value ∈ values, .leaf leaf false ∈ value.origins inside := by
      rw [origins, originsAll_eq_map, List.mem_cons, List.mem_append, mem_flatten_intersperse_iff (by simp)]
      simp
    rw [hmem]
    constructor
    · rintro ⟨value, hm, h⟩
      obtain ⟨hinside, hexposed⟩ := (ih value hm).1 h
      exact ⟨hinside, .list hm hexposed⟩
    · rintro ⟨hinside, hexposed⟩
      cases hexposed with
      | self h => cases h
      | list hm h => exact ⟨_, hm, (ih _ hm).2 ⟨hinside, h⟩⟩
  | declassified value ih =>
    have hexposed : ¬Exposed leaf (.declassified value) := by
      rintro (h | _)
      cases h
    simp [origins, ih, hexposed]

/-- An exposed leaf is a leaf. -/
theorem Exposed.isLeaf {leaf value : Value} (h : Exposed leaf value) : leaf.isLeaf = true := by
  induction h with
  | self h => exact h
  | reference _ ih => exact ih
  | present _ ih => exact ih
  | list _ _ ih => exact ih

/-! ## Comparing the forms -/

/-- Only at a leaf of a private kind that is not inside a declassified value do the two texts of an origin differ. -/
theorem Origin.redacted_eq_full_or (origin : Origin) :
    origin.redacted = origin.full ∨
      origin.redacted = redactedText ∧ ∃ leaf, origin = .leaf leaf false ∧ leaf.isPrivate = true := by
  cases origin with
  | frame text => exact Or.inl rfl
  | leaf leaf inside =>
    cases inside with
    | true => exact Or.inl (by simp [redacted, full])
    | false =>
      cases h : leaf.isPrivate with
      | false => exact Or.inl (by simp [redacted, full, h])
      | true => exact Or.inr ⟨by simp [redacted, h], leaf, rfl, h⟩

/-- At each place stand the two texts of one origin. -/
theorem getElem?_of_origins {value : Value} {i : Nat} {origin : Origin} (h : (value.origins false)[i]? = some origin) :
    value.full[i]? = some origin.full ∧ value.redacted[i]? = some origin.redacted := by
  have hredacted : value.redacted = (value.origins false).map Origin.redacted := (map_redacted_origins value false).symm
  rw [full_eq_map value false, hredacted, List.getElem?_map, List.getElem?_map, h]
  exact ⟨rfl, rfl⟩

/-- Redaction is pointwise. A value has as many writes redacted as in full, one for each origin, and at each place stand the
texts of the origin: the same text, or `<private>` instead of it. The texts differ only at a leaf of a private kind which is in
the value with no declassified value around it. So the frame is the same in both forms, and the forms are the same exactly if
each of these leaves, if there is any, reads `<private>` itself. -/
theorem redacted_pointwise (value : Value) :
    (value.redacted.length = value.full.length ∧ (value.origins false).length = value.full.length) ∧
    (∀ (i : Nat) (origin : Origin), (value.origins false)[i]? = some origin →
      value.full[i]? = some origin.full ∧ value.redacted[i]? = some origin.redacted) ∧
    (∀ i : Nat, value.redacted[i]? = value.full[i]? ∨ value.redacted[i]? = some redactedText) ∧
    (∀ i : Nat, value.redacted[i]? ≠ value.full[i]? →
      ∃ leaf, (value.origins false)[i]? = some (.leaf leaf false) ∧ leaf.isPrivate = true ∧ Exposed leaf value) ∧
    (∀ (i : Nat) (text : String), (value.origins false)[i]? = some (.frame text) →
      value.full[i]? = some text ∧ value.redacted[i]? = some text) ∧
    (value.redacted = value.full ↔
      ∀ leaf, Exposed leaf value → leaf.isPrivate = true → leaf.full = [redactedText]) := by
  have hfull := full_eq_map value false
  have hredacted : value.redacted = (value.origins false).map Origin.redacted := (map_redacted_origins value false).symm
  have hplaces : ∀ i : Nat, value.redacted[i]? = value.full[i]? ∨ value.redacted[i]? = some redactedText ∧
      ∃ leaf, (value.origins false)[i]? = some (.leaf leaf false) ∧ leaf.isPrivate = true ∧ Exposed leaf value := by
    intro i
    cases horigin : (value.origins false)[i]? with
    | none =>
      left
      rw [hfull, hredacted, List.getElem?_map, List.getElem?_map, horigin]
      rfl
    | some origin =>
      obtain ⟨hshown, hkept⟩ := getElem?_of_origins horigin
      rw [hshown, hkept]
      rcases origin.redacted_eq_full_or with h | ⟨h, leaf, rfl, hprivate⟩
      · exact Or.inl (congrArg some h)
      · exact Or.inr ⟨congrArg some h, leaf, rfl, hprivate,
          (leaf_mem_origins_iff.1 (List.mem_of_getElem? horigin)).2⟩
  refine ⟨⟨?_, ?_⟩, fun i origin => getElem?_of_origins, fun i => (hplaces i).imp_right (·.1),
    fun i hne => ((hplaces i).resolve_left hne).2, fun i text => getElem?_of_origins, fun h leaf hexposed hprivate => ?_,
    fun h => ?_⟩
  · rw [hfull, hredacted, List.length_map, List.length_map]
  · rw [hfull, List.length_map]
  · obtain ⟨i, hi⟩ := List.mem_iff_getElem?.1 (leaf_mem_origins_iff.2 ⟨rfl, hexposed⟩)
    obtain ⟨hshown, hkept⟩ := getElem?_of_origins hi
    obtain ⟨text, htext⟩ := exists_full_of_isLeaf hexposed.isLeaf
    rw [h, hshown] at hkept
    have hsame : text = redactedText := by
      simpa [Origin.full, Origin.redacted, htext, hprivate] using hkept
    rw [htext, hsame]
  · rw [hredacted, hfull]
    refine List.map_congr_left fun origin hm => ?_
    rcases origin.redacted_eq_full_or with horigin | ⟨horigin, leaf, rfl, hprivate⟩
    · exact horigin
    · have htext := h leaf (leaf_mem_origins_iff.1 hm).2 hprivate
      rw [horigin, Origin.full, htext]
      simp

/-- A list of a text, a declassified number, and a text that reads like a withheld one. -/
theorem redacted_pointwise_list :
    (redacted (.list [.text "a", .declassified (.wide 7), .present (.text "<private>")]) =
        ["[", "<private>", ", ", "7", ", ", "Some(", "<private>", ")", "]"] ∧
      ∃ leaf, (origins false (.list [.text "a", .declassified (.wide 7), .present (.text "<private>")]))[1]? =
        some (.leaf leaf false) ∧ leaf.isPrivate = true ∧
          Exposed leaf (.list [.text "a", .declassified (.wide 7), .present (.text "<private>")])) ∧
    redacted (.list [.declassified (.wide 7), .present (.text "<private>")]) =
      full (.list [.declassified (.wide 7), .present (.text "<private>")]) := by
  obtain ⟨-, -, -, hdiffer, -, -⟩ :=
    redacted_pointwise (.list [.text "a", .declassified (.wide 7), .present (.text "<private>")])
  obtain ⟨-, -, -, -, -, hsame⟩ := redacted_pointwise (.list [.declassified (.wide 7), .present (.text "<private>")])
  refine ⟨⟨by decide +kernel, hdiffer 1 (by decide +kernel)⟩, hsame.2 fun leaf hexposed _ => ?_⟩
  cases hexposed with
  | self h => cases h
  | list hm h =>
    simp only [List.mem_cons, List.not_mem_nil, or_false] at hm
    rcases hm with rfl | rfl
    · cases h with
      | self h => cases h
    · cases h with
      | self h => cases h
      | present h => cases h with
        | self => rfl

end PrivateLog.Value
