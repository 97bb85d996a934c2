import PrivateLog.Proofs.Format.Spelling

/-!
# Formats behind one another

A format is read part by part. Behind a format that is read well, reading begins anew: what follows is read as it is on its
own, only further on (`marks_append`), so its pieces come behind those of the first part (`parse_append`). An error stands
where the percent sign of the directive at fault does, and what is in front of that is read well (`exists_of_marks_error`).
An error that a character gives rise to, and not the end of the text, stays whatever follows (`marks_append_of_settled`).
-/

namespace PrivateLog.Format

open Text

/-! ## Pieces behind one another -/

/-- Some pieces behind others. Two texts that meet become one. -/
def join (front behind : List Piece) : List Piece :=
  match front.getLast?, behind with
  | some (.literal a), .literal b :: rest => front.dropLast ++ .literal (a ++ b) :: rest
  | _, _ => front ++ behind

/-- Two texts that meet become one. -/
theorem join_literal (front rest : List Piece) (a b : String) :
    join (front ++ [.literal a]) (.literal b :: rest) = front ++ .literal (a ++ b) :: rest := by
  simp [join]

/-- Other pieces come behind one another. -/
theorem join_of_not_literal {front behind : List Piece}
    (h : ∀ a b, front.getLast? = some (.literal a) → behind.head? ≠ some (.literal b)) :
    join front behind = front ++ behind := by
  unfold join
  split
  · rename_i a b rest hlast
    exact absurd rfl (h a b hlast)
  · rfl

/-- Either two texts meet, or none do. -/
theorem exists_literal_or_not (front behind : List Piece) :
    (∃ init a b rest, front = init ++ [.literal a] ∧ behind = .literal b :: rest) ∨
      ∀ a b, front.getLast? = some (.literal a) → behind.head? ≠ some (.literal b) := by
  by_cases h : ∃ a b, front.getLast? = some (.literal a) ∧ behind.head? = some (.literal b)
  · obtain ⟨a, b, ha, hb⟩ := h
    obtain ⟨init, rfl⟩ := List.getLast?_eq_some_iff.1 ha
    obtain ⟨rest, rfl⟩ := List.head?_eq_some_iff.1 hb
    exact Or.inl ⟨init, a, b, rest, rfl, rfl⟩
  · exact Or.inr fun a b ha hb => h ⟨a, b, ha, hb⟩

/-- No mark is lost where pieces meet. -/
theorem flatMap_marks_join (front behind : List Piece) :
    (join front behind).flatMap Piece.marks = front.flatMap Piece.marks ++ behind.flatMap Piece.marks := by
  rcases exists_literal_or_not front behind with ⟨init, a, b, rest, rfl, rfl⟩ | hnone
  · simp [join_literal, Piece.marks]
  · rw [join_of_not_literal hnone, List.flatMap_append]

/-- Merged pieces stay merged where they meet. -/
theorem merged_join {front behind : List Piece} (hf : Runs.Merged (front.map Piece.part))
    (hb : Runs.Merged (behind.map Piece.part)) : Runs.Merged ((join front behind).map Piece.part) := by
  rcases exists_literal_or_not front behind with ⟨init, a, b, rest, rfl, rfl⟩ | hnone
  · rw [List.map_append, List.map_cons, List.map_nil, Piece.part, Runs.merged_append_iff] at hf
    obtain ⟨hinit, ⟨hne, -⟩, hmeet⟩ := hf
    obtain ⟨-, hhead, hrest⟩ := hb
    rw [join_literal, List.map_append, List.map_cons, Piece.part, Runs.merged_append_iff]
    refine ⟨hinit, ⟨fun he => hne (String.append_eq_empty_iff.1 he).1, hhead, hrest⟩, fun s t hs _ => ?_⟩
    exact hmeet s a hs rfl
  · rw [join_of_not_literal hnone, List.map_append, Runs.merged_append_iff]
    refine ⟨hf, hb, fun s t hs ht => ?_⟩
    rw [List.getLast?_map, Option.map_eq_some_iff] at hs
    rw [List.head?_map, Option.map_eq_some_iff] at ht
    obtain ⟨last, hlast, hs⟩ := hs
    obtain ⟨first, hfirst, ht⟩ := ht
    cases last <;> cases hs
    cases first <;> cases ht
    exact hnone s t hlast hfirst

/-- Marks behind one another are gathered into pieces behind one another. -/
theorem gather_append (front behind : List Mark) :
    gather [] (front ++ behind) = join (gather [] front) (gather [] behind) := by
  obtain ⟨hf, hfront⟩ := gather_eq_iff.1 (rfl : gather [] front = _)
  obtain ⟨hb, hbehind⟩ := gather_eq_iff.1 (rfl : gather [] behind = _)
  rw [gather_eq_iff, flatMap_marks_join, hfront, hbehind]
  exact ⟨merged_join hf hb, rfl⟩

/-! ## The same further on -/

/-- The error with its offset moved on by some bytes. An error that has no place stays. -/
def Error.shift (bytes : Nat) : Error → Error
  | .unknownSpecifier offset found => .unknownSpecifier (bytes + offset) found
  | .unterminatedQualifier offset => .unterminatedQualifier (bytes + offset)
  | .unknownQualifier offset qualifier => .unknownQualifier (bytes + offset) qualifier
  | .argumentCount expected provided => .argumentCount expected provided

/-- What has been begun, some bytes further on. -/
def State.shift (bytes : Nat) : State → State
  | .text => .text
  | .percent start => .percent (bytes + start)
  | .qualifier start name => .qualifier (bytes + start) name
  | .closed start name => .closed (bytes + start) name

/-- A character is read alike further on. -/
theorem step_shift (bytes offset : Nat) (c : Char) (state : State) :
    step (bytes + offset) c (state.shift bytes) =
      ((fun found => (found.1.shift bytes, found.2)) <$> step offset c state).mapError (Error.shift bytes) := by
  cases state with
  | text =>
    simp only [State.shift, step]
    split <;> rfl
  | percent start =>
    simp only [State.shift, step]
    repeat' split
    all_goals rfl
  | qualifier start name =>
    simp only [State.shift, step]
    split <;> rfl
  | closed start name =>
    simp only [State.shift, step]
    repeat' split
    all_goals rfl

/-- So is a text. -/
theorem scan_shift (bytes offset : Nat) (state : State) (text : List Char) :
    scan (state.shift bytes) (bytes + offset) text =
      ((fun found => (found.1, found.2.shift bytes)) <$> scan state offset text).mapError (Error.shift bytes) := by
  induction text generalizing state offset with
  | nil => rfl
  | cons c text ih =>
    rw [scan, scan, step_shift]
    cases step offset c state with
    | error e => rfl
    | ok found =>
      obtain ⟨next, mark?⟩ := found
      have hrest := ih (offset + c.utf8Size) next
      rw [← Nat.add_assoc] at hrest
      simp only [Outcome.ok_bind, Except.mapError, Except.map_ok, hrest]
      cases scan next (offset + c.utf8Size) text <;> rfl

/-- And so is the end of a format. -/
theorem finish_shift (bytes : Nat) (state : State) :
    finish (state.shift bytes) = (finish state).mapError (Error.shift bytes) := by
  cases state <;> rfl

/-- Behind a format that is read well a text stands for what it does on its own, and its errors are further on. -/
theorem marks_append {a b : List Char} {found : List Mark} (h : marks a = .ok found) :
    marks (a ++ b) = ((found ++ ·) <$> marks b).mapError (Error.shift (byteLength a)) := by
  rw [marks_eq_ok_iff] at h
  have hfront : scan .text 0 a = .ok (found, .text) := by
    rw [h]
    exact scan_flatMap_spelling 0 found
  have hbehind := scan_shift (byteLength a) 0 .text b
  rw [State.shift, Nat.add_zero] at hbehind
  simp only [marks, scan_append, hfront, Nat.zero_add, Outcome.ok_bind, hbehind]
  cases scan .text 0 b with
  | error e => rfl
  | ok more =>
    obtain ⟨more, last⟩ := more
    simp only [Except.mapError, Except.map_ok, Outcome.ok_bind, Outcome.pure_eq_ok, finish_shift]
    cases finish last <;> rfl

/-- Behind a format that is read well a format has its own pieces, and its errors are further on. -/
theorem parse_append {a : String} {pieces : List Piece} (h : parse a = .ok pieces) (b : String) :
    parse (a ++ b) = (join pieces <$> parse b).mapError (Error.shift (byteLength a.toList)) := by
  obtain ⟨found, hfound, rfl⟩ := Outcome.map_eq_ok_iff.1 h
  rw [parse, parse, String.toList_append, marks_append hfound]
  cases marks b.toList with
  | error e => rfl
  | ok more => simp [Except.mapError, gather_append]

/-! ## Where errors stand -/

/-- The place that an error names, if it names one. -/
def Error.offset? : Error → Option Nat
  | .unknownSpecifier offset _ => some offset
  | .unterminatedQualifier offset => some offset
  | .unknownQualifier offset _ => some offset
  | .argumentCount _ _ => none

/-- Whether a character gives rise to the error, so that nothing behind it matters. The others are about a format that ends
too early. -/
def Error.isSettled : Error → Bool
  | .unknownSpecifier _ found => found.isSome
  | .unterminatedQualifier _ => false
  | .unknownQualifier _ _ => true
  | .argumentCount _ _ => false

/-- Where that begins which has been begun, if anything has. -/
def State.start? : State → Option Nat
  | .text => none
  | .percent start => some start
  | .qualifier start _ => some start
  | .closed start _ => some start

/-- What has been begun begins with a percent sign. -/
theorem pending_of_start? {state : State} {start : Nat} (h : state.start? = some start) :
    ∃ more, state.pending = '%' :: more := by
  cases state with
  | text => cases h
  | percent start => exact ⟨_, rfl⟩
  | qualifier start name => exact ⟨_, rfl⟩
  | closed start name => exact ⟨_, rfl⟩

/-- What is begun behind a character was begun before it, or begins with it. -/
theorem start?_of_step {offset start : Nat} {c : Char} {state next : State} {mark? : Option Mark}
    (h : step offset c state = .ok (next, mark?)) (hstart : next.start? = some start) :
    mark? = none ∧ (state.start? = some start ∨ state = .text ∧ start = offset) := by
  cases state with
  | text =>
    simp only [step] at h
    split at h <;> cases h <;> cases hstart
    exact ⟨rfl, Or.inr ⟨rfl, rfl⟩⟩
  | percent begun =>
    simp only [step] at h
    split at h
    · cases h
      cases hstart
    · split at h
      · cases h
        cases hstart
      · split at h <;> cases h
        exact ⟨rfl, Or.inl hstart⟩
  | qualifier begun name =>
    simp only [step] at h
    split at h <;> cases h <;> exact ⟨rfl, Or.inl hstart⟩
  | closed begun name =>
    simp only [step] at h
    split at h
    · split at h <;> cases h
      cases hstart
    · cases h

/-- What has been begun reaches from its beginning to the place `offset`. -/
def State.ReachesTo (state : State) (offset : Nat) : Prop :=
  ∀ start, state.start? = some start → start + byteLength state.pending = offset

/-- With one more character it reaches behind that. -/
theorem reachesTo_of_step {offset : Nat} {c : Char} {state next : State} {mark? : Option Mark}
    (h : step offset c state = .ok (next, mark?)) (hstate : state.ReachesTo offset) :
    next.ReachesTo (offset + c.utf8Size) := by
  intro start hstart
  obtain ⟨rfl, hbegun⟩ := start?_of_step h hstart
  have hpending := congrArg byteLength (pending_append_of_step h)
  simp only [byteLength_append, byteLength, Option.toList_none, List.flatMap_nil, Nat.add_zero, Nat.zero_add] at hpending
  rcases hbegun with hbegun | ⟨rfl, rfl⟩
  · have := hstate start hbegun
    omega
  · have hnone : byteLength State.text.pending = 0 := rfl
    omega

/-- With a text it reaches behind the text. -/
theorem reachesTo_of_scan {state last : State} {offset : Nat} {text : List Char} {found : List Mark}
    (h : scan state offset text = .ok (found, last)) (hstate : state.ReachesTo offset) :
    last.ReachesTo (offset + byteLength text) := by
  induction text generalizing state offset found with
  | nil =>
    cases h
    exact hstate
  | cons c text ih =>
    obtain ⟨⟨next, mark?⟩, hs, h⟩ := Outcome.bind_eq_ok_iff.1 h
    obtain ⟨⟨more, final⟩, hr, h⟩ := Outcome.bind_eq_ok_iff.1 h
    cases h
    rw [byteLength, ← Nat.add_assoc]
    exact ih hr (reachesTo_of_step hs hstate)

/-- What has been begun at the end of a text is a percent sign with something behind it, and what stands in front of it is
read well. -/
theorem exists_of_scan {text : List Char} {found : List Mark} {last : State} {start : Nat}
    (h : scan .text 0 text = .ok (found, last)) (hstart : last.start? = some start) :
    ∃ before more, text = before ++ '%' :: more ∧ byteLength before = start ∧ marks before = .ok found := by
  have htext : text = found.flatMap Mark.spelling ++ last.pending := pending_append_of_scan h
  have hreach : start + byteLength last.pending = 0 + byteLength text :=
    reachesTo_of_scan h (fun _ hnone => nomatch hnone) start hstart
  obtain ⟨more, hmore⟩ := pending_of_start? hstart
  refine ⟨found.flatMap Mark.spelling, more, hmore ▸ htext, ?_, marks_eq_ok_iff.2 rfl⟩
  have hlength := congrArg byteLength htext
  rw [byteLength_append] at hlength
  omega

/-- An error at a character is about what has been begun, and settled. -/
theorem start?_of_step_error {offset : Nat} {c : Char} {state : State} {e : Error} (h : step offset c state = .error e) :
    ∃ start, state.start? = some start ∧ e.offset? = some start ∧ e.isSettled = true := by
  cases state with
  | text =>
    simp only [step] at h
    split at h <;> cases h
  | percent start =>
    simp only [step] at h
    repeat' split at h
    all_goals cases h
    exact ⟨start, rfl, rfl, rfl⟩
  | qualifier start name =>
    simp only [step] at h
    split at h <;> cases h
  | closed start name =>
    simp only [step] at h
    repeat' split at h
    all_goals cases h
    all_goals exact ⟨start, rfl, rfl, rfl⟩

/-- An error at the end of a format is about what has been begun, and not settled. -/
theorem start?_of_finish_error {state : State} {e : Error} (h : finish state = .error e) :
    ∃ start, state.start? = some start ∧ e.offset? = some start ∧ e.isSettled = false := by
  cases state <;> cases h <;> exact ⟨_, rfl, rfl, rfl⟩

/-- An error in a text is that of one of its characters. -/
theorem exists_of_scan_error {state : State} {offset : Nat} {text : List Char} {e : Error}
    (h : scan state offset text = .error e) :
    ∃ front c behind found last, text = front ++ c :: behind ∧ scan state offset front = .ok (found, last) ∧
      step (offset + byteLength front) c last = .error e := by
  induction text generalizing state offset with
  | nil => cases h
  | cons c text ih =>
    rw [scan] at h
    cases hs : step offset c state with
    | error e' =>
      rw [hs] at h
      cases h
      exact ⟨[], c, text, [], state, rfl, rfl, hs⟩
    | ok found =>
      obtain ⟨next, mark?⟩ := found
      rw [hs] at h
      simp only [Outcome.ok_bind] at h
      cases hr : scan next (offset + c.utf8Size) text with
      | ok found =>
        rw [hr] at h
        cases h
      | error e' =>
        rw [hr] at h
        cases h
        obtain ⟨front, d, behind, found, last, rfl, hfront, hstep⟩ := ih hr
        refine ⟨c :: front, d, behind, mark?.toList ++ found, last, rfl, ?_, ?_⟩
        · rw [scan, hs]
          simp [hfront]
        · rwa [byteLength, ← Nat.add_assoc]

/-- A format has an error where one of its characters is at fault, or where it ends. -/
theorem marks_eq_error_iff {text : List Char} {e : Error} :
    marks text = .error e ↔
      scan .text 0 text = .error e ∨ ∃ found last, scan .text 0 text = .ok (found, last) ∧ finish last = .error e := by
  rw [marks]
  cases scan .text 0 text with
  | error e' => simp
  | ok found =>
    obtain ⟨found, last⟩ := found
    cases hf : finish last <;> simp [hf]

/-- A format with an error is read well up to a percent sign, and the error names the place of that. -/
theorem exists_of_marks_error {text : List Char} {e : Error} (h : marks text = .error e) :
    ∃ before behind found, text = before ++ '%' :: behind ∧ e.offset? = some (byteLength before) ∧
      marks before = .ok found := by
  rcases marks_eq_error_iff.1 h with h | ⟨found, last, h, hfinish⟩
  · obtain ⟨front, c, behind, found, last, rfl, hfront, hstep⟩ := exists_of_scan_error h
    obtain ⟨start, hstart, hoffset, -⟩ := start?_of_step_error hstep
    obtain ⟨before, more, rfl, rfl, hbefore⟩ := exists_of_scan hfront hstart
    exact ⟨before, more ++ c :: behind, found, by simp, hoffset, hbefore⟩
  · obtain ⟨start, hstart, hoffset, -⟩ := start?_of_finish_error hfinish
    obtain ⟨before, more, rfl, rfl, hbefore⟩ := exists_of_scan h hstart
    exact ⟨before, more, found, rfl, hoffset, hbefore⟩

/-- A settled error stays, whatever follows. -/
theorem marks_append_of_settled {text : List Char} {e : Error} (h : marks text = .error e) (hsettled : e.isSettled = true)
    (behind : List Char) : marks (text ++ behind) = .error e := by
  rcases marks_eq_error_iff.1 h with h | ⟨found, last, -, hfinish⟩
  · rw [marks_eq_error_iff, scan_append, h]
    exact Or.inl rfl
  · obtain ⟨start, -, -, hnot⟩ := start?_of_finish_error hfinish
    rw [hsettled] at hnot
    cases hnot

/-! ## Formats -/

/-- Reading formats is compositional, and its errors are local and stable. Behind a format that is read well a format is read
exactly if it is read on its own: its pieces come behind the others, two texts that meet being one, and its error is the same
further on by the bytes in front. An error names the place of a percent sign, and the text in front of that is read well; an
error that a character gives rise to stays, whatever follows. -/
theorem parse_compositional :
    (∀ (a b : String) (pieces : List Piece), parse a = .ok pieces →
      ((∃ all, parse (a ++ b) = .ok all) ↔ ∃ more, parse b = .ok more) ∧
        (∀ more, parse b = .ok more → parse (a ++ b) = .ok (join pieces more)) ∧
        (∀ e, parse b = .error e → parse (a ++ b) = .error (e.shift (byteLength a.toList)))) ∧
    (∀ (format : String) (e : Error), parse format = .error e →
      (∀ expected provided, e ≠ .argumentCount expected provided) ∧
        (∃ before behind pieces, format.toList = before ++ '%' :: behind ∧ e.offset? = some (byteLength before) ∧
          parse (String.ofList before) = .ok pieces) ∧
        (e.isSettled = true → ∀ behind, parse (format ++ behind) = .error e)) := by
  refine ⟨fun a b pieces h => ?_, fun format e h => ⟨?_, ?_, fun hsettled behind => ?_⟩⟩
  · rw [parse_append h]
    cases parse b with
    | error e => simp [Except.mapError]
    | ok more => simp [Except.mapError]
  · rintro expected provided rfl
    obtain ⟨before, behind, found, -, hoffset, -⟩ := exists_of_marks_error (Outcome.map_eq_error_iff.1 h)
    cases hoffset
  · obtain ⟨before, behind, found, htext, hoffset, hfound⟩ := exists_of_marks_error (Outcome.map_eq_error_iff.1 h)
    refine ⟨before, behind, gather [] found, htext, hoffset, ?_⟩
    rw [parse, String.toList_ofList, hfound]
    rfl
  · rw [parse, String.toList_append, marks_append_of_settled (Outcome.map_eq_error_iff.1 h) hsettled]
    rfl

/-- Texts that meet behind a percent sign, and an error further on that stays. -/
theorem parse_compositional_percent :
    (parse "100%%" = .ok [.literal "100%"] ∧ parse " of %s" = .ok [.literal " of ", .value .unmarked] ∧
        parse ("100%%" ++ " of %s") = .ok [.literal "100% of ", .value .unmarked]) ∧
      (parse "%d" = .error (.unknownSpecifier 0 (some 'd')) ∧
        parse ("100%%" ++ "%d") = .error (.unknownSpecifier 5 (some 'd'))) ∧
      ∀ behind, parse ("%d" ++ behind) = .error (.unknownSpecifier 0 (some 'd')) := by
  have hfront : parse "100%%" = .ok [.literal "100%"] := by decide +kernel
  have hbehind : parse " of %s" = .ok [.literal " of ", .value .unmarked] := by decide +kernel
  have herror : parse "%d" = .error (.unknownSpecifier 0 (some 'd')) := by decide +kernel
  obtain ⟨hcompose, hlocal⟩ := parse_compositional
  obtain ⟨-, hjoin, -⟩ := hcompose "100%%" " of %s" _ hfront
  obtain ⟨-, -, hshift⟩ := hcompose "100%%" "%d" _ hfront
  obtain ⟨-, -, hstay⟩ := hlocal "%d" _ herror
  exact ⟨⟨hfront, hbehind, hjoin _ hbehind⟩, ⟨herror, hshift _ herror⟩, hstay rfl⟩

end PrivateLog.Format
