import PrivateLog.Proofs.Template.Acceptance

/-!
# The fault that is reported

Of several faults one is reported: a name that was given before, else the first item of the value that is at fault, else a
name that nothing uses. `Rejected` says this without the reader, together with the part of the value that each fault is about,
and `read_eq_error_iff` says that reading fails exactly so. One item is read as what it is or as its fault
(`readPiece_of_faulty`), and from this the whole value is, up to the first fault (`mapM_of_firstFault`). Where no item is at
fault all of them are acceptable (`exists_items_or_firstFault`).
-/

namespace PrivateLog.Template

open Text

/-! ## Faults and where they are -/

/-- The item at the beginning of the text is at fault. The fault is about `part`, and `front` stands in front of that. -/
inductive Faulty (named : List NamedArgument) : List Char → Fault → (front part : List Char) → Prop where
  | unterminated {text part : List Char} : Broken text .unterminated part → Faulty named text .unterminated [] part
  | unmatched {text part : List Char} : Broken text .unmatched part → Faulty named text .unmatched [] part
  | label {body label behind rest : List Char} : (Item.placeholder body).IsValid → Labelled body label behind →
      label ≠ "public".toList →
      Faulty named ((Item.placeholder body).spelling ++ rest) (.unknownModifier (String.ofList label))
        ('{' :: body.takeWhile isBlank) label
  | empty {body text rest : List Char} {modifier : Option Modifier} : (Item.placeholder body).IsValid →
      Splits body modifier text → (∀ c ∈ text, isBlank c = true) →
      Faulty named ((Item.placeholder body).spelling ++ rest) .emptyPlaceholder [] (Item.placeholder body).spelling
  | invalid {body text rest : List Char} {modifier : Option Modifier} : (Item.placeholder body).IsValid →
      Splits body modifier text → (∃ c ∈ text, isBlank c = false) →
      (∀ argument ∈ named, argument.name ≠ String.ofList (trim text)) →
      (∀ place expression, Expression.parse (String.ofList (trim text)) place ≠ .ok expression) →
      Faulty named ((Item.placeholder body).spelling ++ rest) (.invalidExpression (String.ofList (trim text))) []
        (Item.placeholder body).spelling

/-- The item is no placeholder, or one that is acceptable. -/
def Item.IsSound (named : List NamedArgument) (item : Item) : Prop :=
  item.IsValid ∧ ∀ body, item = .placeholder body → Acceptable named body

/-- The first fault of a value: there are only sound items in front of it. -/
inductive FirstFault (named : List NamedArgument) : List Char → Fault → (front part : List Char) → Prop where
  | here {text front part : List Char} {fault : Fault} : Faulty named text fault front part →
      FirstFault named text fault front part
  | later {item : Item} {text front part : List Char} {fault : Fault} : item.IsSound named →
      FirstFault named text fault front part → FirstFault named (item.spelling ++ text) fault (item.spelling ++ front) part

/-- The argument is the first one of which the name was given before. -/
def FirstRepeated (named : List NamedArgument) (argument : NamedArgument) : Prop :=
  ∃ before behind, named = before ++ argument :: behind ∧ (before.map (·.name)).Nodup ∧
    argument.name ∈ before.map (·.name)

/-- Some placeholder among the items names the argument. -/
def Used (items : List Item) (argument : NamedArgument) : Prop :=
  ∃ body, .placeholder body ∈ items ∧ Names body argument.name

/-- The argument is the first one that no placeholder names. -/
def FirstUnused (named : List NamedArgument) (items : List Item) (argument : NamedArgument) : Prop :=
  ∃ before behind, named = before ++ argument :: behind ∧ (∀ other ∈ before, Used items other) ∧ ¬Used items argument

/-- The call is rejected with this diagnostic. A fault of the value is reported at a span that `marks` the part of the value
it is about, a fault of a name at the place of the name. -/
inductive Rejected (named : List NamedArgument) (value : List Char) (marks : List Char → List Char → Span → Prop) :
    Diagnostic → Prop where
  | repeated {argument : NamedArgument} : FirstRepeated named argument →
      Rejected named value marks ⟨.duplicateArgument argument.name, argument.place⟩
  | fault {fault : Fault} {front part : List Char} {span : Span} : (named.map (·.name)).Nodup →
      FirstFault named value fault front part → marks front part span → Rejected named value marks ⟨fault, span⟩
  | unused {items : List Item} {argument : NamedArgument} : (named.map (·.name)).Nodup → Decomposes value items →
      (∀ item ∈ items, item.IsSound named) → FirstUnused named items argument →
      Rejected named value marks ⟨.unusedArgument argument.name, argument.place⟩

/-! ## Parts of the value -/

/-- A fault is about a part of the value, and about one that is not empty. -/
theorem Faulty.part_spec {named : List NamedArgument} {text front part : List Char} {fault : Fault}
    (h : Faulty named text fault front part) : front ++ part <+: text ∧ part ≠ [] := by
  cases h with
  | unterminated hbroken =>
    cases hbroken
    exact ⟨List.prefix_rfl, List.cons_ne_nil _ _⟩
  | unmatched hbroken =>
    cases hbroken
    exact ⟨⟨_, rfl⟩, List.cons_ne_nil _ _⟩
  | @label body label behind rest hvalid hlabelled hne =>
    obtain ⟨after, hbody⟩ := exists_append_of_labelled hlabelled
    obtain ⟨before, -, -, hlabel, -⟩ := hlabelled
    refine ⟨⟨after ++ '}' :: rest, ?_⟩, ?_⟩
    · conv_rhs => rw [Item.spelling, hbody]
      simp
    · rintro rfl
      cases hlabel
  | empty hvalid hs hblank => exact ⟨List.prefix_append _ _, List.cons_ne_nil _ _⟩
  | invalid hvalid hs hne hnone hparse => exact ⟨List.prefix_append _ _, List.cons_ne_nil _ _⟩

/-- So is the first fault of a value. -/
theorem FirstFault.part_spec {named : List NamedArgument} {text front part : List Char} {fault : Fault}
    (h : FirstFault named text fault front part) : front ++ part <+: text ∧ part ≠ [] := by
  induction h with
  | here hfaulty => exact hfaulty.part_spec
  | later hitem _ ih =>
    obtain ⟨hlead, hne⟩ := ih
    rw [List.append_assoc]
    exact ⟨(List.prefix_append_right_inj _).2 hlead, hne⟩

/-- What a call is rejected with depends only on the spans for parts of its value. -/
theorem Rejected.imp {named : List NamedArgument} {value : List Char} {marks marks' : List Char → List Char → Span → Prop}
    {diagnostic : Diagnostic} (h : Rejected named value marks diagnostic)
    (hmarks : ∀ front part, front ++ part <+: value → ∀ span, marks front part span → marks' front part span) :
    Rejected named value marks' diagnostic := by
  cases h with
  | repeated hfirst => exact .repeated hfirst
  | fault hd hfault hspan => exact .fault hd hfault (hmarks _ _ hfault.part_spec.1 _ hspan)
  | unused hd hitems hall hunused => exact .unused hd hitems hall hunused

/-! ## Reading up to the first fault -/

variable {named : List NamedArgument}

/-- A body that splits is read as its text. -/
theorem readBody_of_splits {body text : List Char} {modifier : Option Modifier} (h : Splits body modifier text)
    (place : Span → Span) (span : Span) :
    readBody named place body span = readText named modifier text (place span) := by
  rcases splits_iff.1 h with ⟨hread, rfl, rfl⟩ | ⟨m, hread, rfl⟩ <;> rw [readBody, hread]

/-- A text that names no argument and is no expression is refused as such. -/
theorem resolve_eq_invalidExpression {text : List Char} (hne : ∃ c ∈ text, isBlank c = false)
    (hnone : ∀ argument ∈ named, argument.name ≠ String.ofList (trim text))
    (hparse : ∀ place expression, Expression.parse (String.ofList (trim text)) place ≠ .ok expression) (place : Span) :
    resolve named text place = .error (.invalidExpression (String.ofList (trim text))) := by
  have htrim : trim text ≠ [] := by
    intro hnil
    obtain ⟨c, hc, hblank⟩ := hne
    rw [trim_eq_nil_iff.1 hnil c hc] at hblank
    cases hblank
  unfold resolve
  rw [find?_eq_none_iff_name.2 hnone]
  dsimp only
  rw [← parse_ofList_trim]
  cases hresult : Expression.parse (String.ofList (trim text)) place with
  | ok expression => exact absurd hresult (hparse place expression)
  | error fault =>
    unfold Expression.parse at hresult
    rw [String.toList_ofList, trim_trim] at hresult
    split at hresult
    · rename_i hnil
      exact absurd hnil htrim
    · split at hresult
      · cases hresult
      · cases hresult
        rfl

/-- A blank text names no argument, and is refused as such. -/
theorem resolve_eq_emptyPlaceholder {text : List Char} (hnames : ∀ argument ∈ named, argument.name ≠ "")
    (hblank : ∀ c ∈ text, isBlank c = true) (place : Span) : resolve named text place = .error .emptyPlaceholder := by
  have htrim : String.ofList (trim text) = "" := by
    rw [trim_eq_nil_iff.2 hblank]
  unfold resolve
  rw [htrim, find?_eq_none_iff_name.2 hnames]
  refine Expression.parse_eq_emptyPlaceholder_of_blank place ?_
  rwa [String.toList_ofList]

/-- The item at fault is cut off as one piece, and reading that piece is the fault. -/
theorem exists_cut_of_faulty (hnames : ∀ argument ∈ named, argument.name ≠ "") {text front part : List Char}
    {fault : Fault} (h : Faulty named text fault front part) (place : Span → Span) (fuel offset : Nat) :
    ∃ piece more, cutWithin (fuel + 1) offset text = piece :: more ∧
      readPiece named place piece =
        .error ⟨fault, place ⟨offset + byteLength front, offset + byteLength front + byteLength part⟩⟩ := by
  -- A placeholder is cut off whole; what its text is resolved to decides.
  have htext : ∀ {body text rest : List Char} {modifier : Option Modifier} {fault : Fault},
      (Item.placeholder body).IsValid → Splits body modifier text →
      (∀ place, resolve named text place = .error fault) →
      ∃ piece more, cutWithin (fuel + 1) offset ((Item.placeholder body).spelling ++ rest) = piece :: more ∧
        readPiece named place piece =
          .error ⟨fault, place ⟨offset, offset + byteLength (Item.placeholder body).spelling⟩⟩ := by
    intro body text rest modifier fault hvalid hs hresolve
    refine ⟨_, _, cutWithin_spelling_append hvalid fuel offset rest, Outcome.map_eq_error_iff.2 ?_⟩
    rw [readBody_of_splits hs, readText, hresolve]
  cases h with
  | unterminated hbroken => exact ⟨_, [], cutWithin_of_broken hbroken fuel offset, rfl⟩
  | unmatched hbroken => exact ⟨_, [], cutWithin_of_broken hbroken fuel offset, rfl⟩
  | @label body label behind rest hvalid hlabelled hne =>
    refine ⟨_, _, cutWithin_spelling_append hvalid fuel offset rest, Outcome.map_eq_error_iff.2 ?_⟩
    have hread := ((read_of_labelled hlabelled).resolve_left fun hpublic => hne hpublic.1).2
    have hopen : '{'.utf8Size = 1 := by decide
    rw [readBody, hread, byteLength, hopen, ← Nat.add_assoc]
  | empty hvalid hs hblank => exact htext hvalid hs (resolve_eq_emptyPlaceholder hnames hblank)
  | invalid hvalid hs hne hnone hparse => exact htext hvalid hs (resolve_eq_invalidExpression hne hnone hparse)

/-- So reading the pieces of a value ends with its first fault, as long as the fuel lasts. -/
theorem mapM_of_firstFault (hd : (named.map (·.name)).Nodup) (hnames : ∀ argument ∈ named, argument.name ≠ "")
    {text front part : List Char} {fault : Fault} (h : FirstFault named text fault front part) (place : Span → Span)
    {fuel : Nat} (hfuel : text.length ≤ fuel) (offset : Nat) :
    (cutWithin fuel offset text).mapM (readPiece named place) =
      .error ⟨fault, place ⟨offset + byteLength front, offset + byteLength front + byteLength part⟩⟩ := by
  induction h generalizing fuel offset with
  | @here text front part fault hfaulty =>
    cases fuel with
    | zero =>
      obtain ⟨hlead, hne⟩ := hfaulty.part_spec
      rw [List.length_eq_zero_iff.1 (Nat.le_zero.1 hfuel), List.prefix_nil] at hlead
      exact absurd (List.append_eq_nil_iff.1 hlead).2 hne
    | succ fuel =>
      obtain ⟨piece, more, hcut, hread⟩ := exists_cut_of_faulty hnames hfaulty place fuel offset
      rw [hcut, List.mapM_cons, hread, Outcome.error_bind]
  | @later item text front part fault hitem _ ih =>
    obtain ⟨hvalid, haccept⟩ := hitem
    have hpos := item.spelling_length_pos
    rw [List.length_append] at hfuel
    cases fuel with
    | zero => omega
    | succ fuel =>
      obtain ⟨found, hfound⟩ := exists_readsItem haccept place ⟨offset, offset + byteLength item.spelling⟩
      obtain ⟨piece, hpiece, -⟩ := exists_readPiece hd hfound
      rw [locatedPiece] at hpiece
      rw [cutWithin_spelling_append hvalid, List.mapM_cons, hpiece, Outcome.ok_bind, ih (by omega), Outcome.error_bind,
        byteLength_append, ← Nat.add_assoc]

/-- A placeholder that is not acceptable is at fault. -/
theorem exists_faulty_of_not_acceptable {body : List Char} (hvalid : (Item.placeholder body).IsValid)
    (h : ¬Acceptable named body) (rest : List Char) :
    ∃ fault front part, Faulty named ((Item.placeholder body).spelling ++ rest) fault front part := by
  -- A body without a foreign label splits, and its text is at fault.
  have htext : ∀ {modifier : Option Modifier} {text : List Char}, Splits body modifier text →
      ∃ fault front part, Faulty named ((Item.placeholder body).spelling ++ rest) fault front part := by
    intro modifier text hs
    by_cases hblank : ∀ c ∈ text, isBlank c = true
    · exact ⟨_, _, _, .empty hvalid hs hblank⟩
    · have hne : ∃ c ∈ text, isBlank c = false := by
        simpa using hblank
      refine ⟨_, _, _, .invalid hvalid hs hne (fun argument hm hname => ?_) fun place expression hparse => ?_⟩
      · exact h ⟨_, ⟨modifier, text, hs, rfl⟩, Or.inl ⟨argument, hm, hname⟩⟩
      · exact h ⟨_, ⟨modifier, text, hs, rfl⟩, Or.inr ⟨place, expression, hparse⟩⟩
  by_cases hlabel : ∃ label behind, Labelled body label behind
  · obtain ⟨label, behind, hlabelled⟩ := hlabel
    by_cases hpublic : label = "public".toList
    · subst hpublic
      exact htext (.shown hlabelled)
    · exact ⟨_, _, _, .label hvalid hlabelled hpublic⟩
  · exact htext (.bare fun label behind hlabelled => hlabel ⟨label, behind, hlabelled⟩)

/-- A value is a row of sound items, or it has a first fault. -/
theorem exists_items_or_firstFault (named : List NamedArgument) (value : List Char) :
    (∃ items, Decomposes value items ∧ ∀ item ∈ items, item.IsSound named) ∨
      ∃ fault front part, FirstFault named value fault front part := by
  induction hlength : value.length using Nat.strongRecOn generalizing value with
  | ind n ih =>
    cases value with
    | nil => exact Or.inl ⟨[], decomposes_nil, fun item hm => absurd hm List.not_mem_nil⟩
    | cons c text =>
      rcases exists_item_or_broken c text with ⟨item, rest, hvalid, htext⟩ | ⟨piece, part, hbroken⟩
      · rw [htext] at hlength ⊢
        have hpos := item.spelling_length_pos
        rw [List.length_append] at hlength
        by_cases hsound : item.IsSound named
        · rcases ih rest.length (by omega) rest rfl with ⟨items, hitems, hall⟩ | ⟨fault, front, part, hfault⟩
          · exact Or.inl ⟨item :: items, hitems.cons hvalid, List.forall_mem_cons.2 ⟨hsound, hall⟩⟩
          · exact Or.inr ⟨_, _, _, .later hsound hfault⟩
        · have hbody : ∃ body, item = .placeholder body ∧ ¬Acceptable named body := by
            simpa [Item.IsSound, hvalid] using hsound
          obtain ⟨body, rfl, hbody⟩ := hbody
          obtain ⟨fault, front, part, hfaulty⟩ := exists_faulty_of_not_acceptable hvalid hbody rest
          exact Or.inr ⟨_, _, _, .here hfaulty⟩
      · refine Or.inr ?_
        cases hbroken with
        | unterminated hhead hbalanced => exact ⟨_, _, _, .here (.unterminated (.unterminated hhead hbalanced))⟩
        | unmatched hhead => exact ⟨_, _, _, .here (.unmatched (.unmatched hhead))⟩

/-! ## Names -/

/-- The argument that is found is the first one with a name that was seen, or was given before. -/
theorem firstDuplicate?_eq_some_iff {seen : List String} {argument : NamedArgument} :
    firstDuplicate? seen named = some argument ↔
      ∃ before behind, named = before ++ argument :: behind ∧ (before.map (·.name)).Nodup ∧
        (∀ other ∈ before, other.name ∉ seen) ∧ (argument.name ∈ seen ∨ argument.name ∈ before.map (·.name)) := by
  induction named generalizing seen with
  | nil => simp [firstDuplicate?]
  | cons first named ih =>
    rw [firstDuplicate?]
    by_cases hseen : first.name ∈ seen
    · rw [if_pos hseen, Option.some.injEq]
      constructor
      · rintro rfl
        exact ⟨[], named, rfl, List.nodup_nil, fun other ho => absurd ho List.not_mem_nil, Or.inl hseen⟩
      · rintro ⟨before, behind, hnamed, -, hnone, -⟩
        cases before with
        | nil => exact (List.cons.inj hnamed).1
        | cons other before =>
          rw [List.cons_append, List.cons.injEq] at hnamed
          exact absurd (hnamed.1 ▸ hseen) (hnone other List.mem_cons_self)
    · rw [if_neg hseen, ih]
      constructor
      · rintro ⟨before, behind, rfl, hd, hnone, hrepeated⟩
        refine ⟨first :: before, behind, rfl, ?_, ?_, ?_⟩
        · rw [List.map_cons, List.nodup_cons]
          refine ⟨fun hm => ?_, hd⟩
          obtain ⟨other, ho, hname⟩ := List.mem_map.1 hm
          exact hnone other ho (hname ▸ List.mem_cons_self)
        · refine List.forall_mem_cons.2 ⟨hseen, fun other ho hm => hnone other ho (List.mem_cons_of_mem _ hm)⟩
        · rcases hrepeated with hm | hm
          · rcases List.mem_cons.1 hm with hname | hm
            · exact Or.inr (by simp [hname])
            · exact Or.inl hm
          · exact Or.inr (List.mem_cons_of_mem _ hm)
      · rintro ⟨before, behind, hnamed, hd, hnone, hrepeated⟩
        cases before with
        | nil =>
          rw [List.nil_append, List.cons.injEq] at hnamed
          rw [← hnamed.1] at hrepeated
          exact absurd (hrepeated.resolve_right List.not_mem_nil) hseen
        | cons other before =>
          rw [List.cons_append, List.cons.injEq] at hnamed
          obtain ⟨rfl, rfl⟩ := hnamed
          rw [List.map_cons, List.nodup_cons] at hd
          refine ⟨before, behind, rfl, hd.2, fun other ho hm => ?_, ?_⟩
          · rcases List.mem_cons.1 hm with hname | hm
            · exact hd.1 (hname ▸ List.mem_map_of_mem ho)
            · exact hnone other (List.mem_cons_of_mem _ ho) hm
          · rcases hrepeated with hm | hm
            · exact Or.inl (List.mem_cons_of_mem _ hm)
            · rcases List.mem_cons.1 hm with hname | hm
              · exact Or.inl (hname ▸ List.mem_cons_self)
              · exact Or.inr hm

/-- With nothing seen it is the first argument with a name that was given before. -/
theorem firstDuplicate?_nil_eq_some_iff {argument : NamedArgument} :
    firstDuplicate? [] named = some argument ↔ FirstRepeated named argument := by
  simp [firstDuplicate?_eq_some_iff, FirstRepeated]

/-- The argument that is left over is the first one that no placeholder names. -/
theorem firstUnused?_eq_some_iff {items : List Item} {place : Span → Span} {pieces : List (Char ⊕ Placeholder)}
    {argument : NamedArgument} (h : ((locate 0 items).map locatedPiece).mapM (readPiece named place) = .ok pieces) :
    firstUnused? named pieces = some argument ↔ FirstUnused named items argument := by
  have hused : ∀ other ∈ named, (∃ placeholder, .inr placeholder ∈ pieces ∧ placeholder.uses = some other.name) ↔
      Used items other := by
    intro other hm
    rw [exists_uses_iff h hm, map_value_locate, Used]
  have hpieces : firstUnused? named pieces = some argument ↔
      (¬∃ placeholder, .inr placeholder ∈ pieces ∧ placeholder.uses = some argument.name) ∧
        ∃ before behind, named = before ++ argument :: behind ∧
          ∀ other ∈ before, ∃ placeholder, .inr placeholder ∈ pieces ∧ placeholder.uses = some other.name := by
    rw [firstUnused?, List.find?_eq_some_iff_append]
    refine and_congr any_uses_iff (exists₂_congr fun before behind => and_congr_right fun _ => ?_)
    refine forall₂_congr fun other _ => ?_
    rw [Bool.not_eq_true', ← Bool.not_eq_true]
    exact (not_congr any_uses_iff).trans not_not
  rw [hpieces]
  constructor
  · rintro ⟨hunused, before, behind, rfl, hbefore⟩
    refine ⟨before, behind, rfl, fun other ho => ?_, fun hu => hunused ((hused argument (by simp)).2 hu)⟩
    exact (hused other (by simp [ho])).1 (hbefore other ho)
  · rintro ⟨before, behind, rfl, hbefore, hunused⟩
    refine ⟨fun hu => hunused ((hused argument (by simp)).1 hu), before, behind, rfl, fun other ho => ?_⟩
    exact (hused other (by simp [ho])).2 (hbefore other ho)

/-! ## Reading that fails -/

/-- A row of sound items is read, piece by piece. -/
theorem exists_pieces_of_isSound (hd : (named.map (·.name)).Nodup) {items : List Item}
    (h : ∀ item ∈ items, item.IsSound named) (place : Span → Span) :
    ∃ pieces, ((locate 0 items).map locatedPiece).mapM (readPiece named place) = .ok pieces := by
  have haccept : ∀ body, .placeholder body ∈ items → Acceptable named body :=
    fun body hm => (h _ hm).2 body rfl
  obtain ⟨parts, hparts⟩ := (exists_parts_iff 0).2 haccept
  obtain ⟨pieces, hread, -⟩ := (exists_pieces_iff hd).2 hparts
  exact ⟨pieces, hread⟩

/-- Reading fails exactly with the diagnostic that the value and its arguments are rejected with. -/
theorem read_eq_error_iff (hnames : ∀ argument ∈ named, argument.name ≠ "") {value : List Char} {place : Span → Span}
    {diagnostic : Diagnostic} :
    read value named place = .error diagnostic ↔
      Rejected named value
        (fun front part span => span = place ⟨byteLength front, byteLength front + byteLength part⟩) diagnostic := by
  have hfault : (named.map (·.name)).Nodup → ∀ {fault front part}, FirstFault named value fault front part →
      read value named place = .error ⟨fault, place ⟨byteLength front, byteLength front + byteLength part⟩⟩ := by
    intro hd fault front part h
    have hread := mapM_of_firstFault hd hnames h place (Nat.le_refl _) 0
    rw [Nat.zero_add] at hread
    rw [read, firstDuplicate?_eq_none_iff.2 ⟨hd, fun _ _ => List.not_mem_nil⟩, cut]
    dsimp only
    rw [hread, Outcome.error_bind]
  have hsound : (named.map (·.name)).Nodup → ∀ {items}, Decomposes value items → (∀ item ∈ items, item.IsSound named) →
      ∀ {diagnostic}, read value named place = .error diagnostic ↔
        ∃ argument, FirstUnused named items argument ∧
          ⟨.unusedArgument argument.name, argument.place⟩ = diagnostic := by
    intro hd items hitems hall diagnostic
    obtain ⟨pieces, hread⟩ := exists_pieces_of_isSound hd hall place
    rw [read, firstDuplicate?_eq_none_iff.2 ⟨hd, fun _ _ => List.not_mem_nil⟩, cut_eq_of_decomposes hitems]
    dsimp only
    rw [hread, Outcome.ok_bind]
    simp only [← firstUnused?_eq_some_iff hread]
    cases firstUnused? named pieces <;> simp
  constructor
  · intro h
    cases hfirst : firstDuplicate? [] named with
    | some argument =>
      rw [read, hfirst] at h
      cases h
      exact .repeated (firstDuplicate?_nil_eq_some_iff.1 hfirst)
    | none =>
      have hd := (firstDuplicate?_eq_none_iff.1 hfirst).1
      rcases exists_items_or_firstFault named value with ⟨items, hitems, hall⟩ | ⟨fault, front, part, hfirstFault⟩
      · obtain ⟨argument, hunused, rfl⟩ := (hsound hd hitems hall).1 h
        exact .unused hd hitems hall hunused
      · rw [hfault hd hfirstFault] at h
        cases h
        exact .fault hd hfirstFault rfl
  · intro h
    cases h with
    | repeated hfirst => rw [read, firstDuplicate?_nil_eq_some_iff.2 hfirst]
    | fault hd hfirstFault hspan => rw [hfault hd hfirstFault, hspan]
    | unused hd hitems hall hunused => exact (hsound hd hitems hall).2 ⟨_, hunused, rfl⟩

end PrivateLog.Template
