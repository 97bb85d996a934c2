import PrivateLog.Proofs.Outcome
import PrivateLog.Proofs.Template.Cutting
import PrivateLog.Proofs.Template.Labels

/-!
# The templates that are read

Reading takes exactly the values of the grammar (`read_iff_grammar`). A body is read exactly if it splits into a modifier and
a text that stands for an expression (`readBody_eq_ok_iff`). So the pieces of a row of items are read as what the items stand
for (`readsItem_of_readPiece`, `exists_readPiece`). Gathering the results is gathering runs, and an argument is left over
exactly if no body names it (`exists_uses_iff`).
-/

namespace PrivateLog.Template

open Text

/-! ## Names of arguments -/

/-- No name is given twice exactly if no two arguments have the same name and none has one that was seen before. -/
theorem firstDuplicate?_eq_none_iff {seen : List String} {named : List NamedArgument} :
    firstDuplicate? seen named = none ↔
      (named.map (·.name)).Nodup ∧ ∀ argument ∈ named, argument.name ∉ seen := by
  induction named generalizing seen with
  | nil => simp [firstDuplicate?]
  | cons argument named ih =>
    rw [firstDuplicate?, List.map_cons, List.nodup_cons, List.forall_mem_cons]
    by_cases hseen : argument.name ∈ seen
    · simp [hseen]
    · rw [if_neg hseen, ih]
      constructor
      · rintro ⟨hd, hnone⟩
        refine ⟨⟨fun hm => ?_, hd⟩, hseen, fun other ho => fun hs => hnone other ho (List.mem_cons_of_mem _ hs)⟩
        obtain ⟨other, ho, hname⟩ := List.mem_map.1 hm
        exact hnone other ho (hname ▸ List.mem_cons_self)
      · rintro ⟨⟨hne, hd⟩, -, hnone⟩
        refine ⟨hd, fun other ho hm => ?_⟩
        rcases List.mem_cons.1 hm with hname | hs
        · exact hne (hname ▸ List.mem_map.2 ⟨other, ho, rfl⟩)
        · exact hnone other ho hs

/-- Whether an argument is left over is whether no placeholder uses it. -/
theorem any_uses_iff {pieces : List (Char ⊕ Placeholder)} {name : String} :
    (!pieces.any fun
      | .inl _ => false
      | .inr placeholder => placeholder.uses == some name) = true ↔
      ¬∃ placeholder, .inr placeholder ∈ pieces ∧ placeholder.uses = some name := by
  rw [Bool.not_eq_true', ← Bool.not_eq_true, List.any_eq_true, not_iff_not]
  constructor
  · rintro ⟨c | placeholder, hm, hu⟩
    · cases hu
    · exact ⟨placeholder, hm, eq_of_beq hu⟩
  · rintro ⟨placeholder, hm, hu⟩
    exact ⟨.inr placeholder, hm, beq_iff_eq.2 hu⟩

/-- No argument is left over exactly if each is used by a placeholder. -/
theorem firstUnused?_eq_none_iff {named : List NamedArgument} {pieces : List (Char ⊕ Placeholder)} :
    firstUnused? named pieces = none ↔
      ∀ argument ∈ named, ∃ placeholder, .inr placeholder ∈ pieces ∧ placeholder.uses = some argument.name := by
  rw [firstUnused?, List.find?_eq_none]
  exact forall_congr' fun argument => imp_congr_right fun _ => (not_congr any_uses_iff).trans not_not

/-! ## Reading a placeholder -/

/-- A body is read exactly if it splits and its text is resolved. -/
theorem readBody_eq_ok_iff {named : List NamedArgument} {place : Span → Span} {body : List Char} {span : Span}
    {placeholder : Placeholder} :
    readBody named place body span = .ok placeholder ↔
      ∃ text, Splits body placeholder.modifier text ∧
        resolve named text (place span) = .ok placeholder.expression ∧ placeholder.uses = usedName? named text := by
  have htext : ∀ modifier text, readText named modifier text (place span) = .ok placeholder ↔
      placeholder.modifier = modifier ∧ resolve named text (place span) = .ok placeholder.expression ∧
        placeholder.uses = usedName? named text := by
    intro modifier text
    obtain ⟨expression, modifier', uses⟩ := placeholder
    unfold readText
    cases resolve named text (place span) with
    | error fault => simp
    | ok found => simp [eq_comm, and_left_comm]
  unfold readBody
  cases hr : Body.read body with
  | unlabelled => simp [htext, splits_iff, hr]
  | labelled modifier text =>
    constructor
    · intro h
      obtain ⟨hmodifier, hread⟩ := (htext _ _).1 h
      exact ⟨text, splits_iff.2 (Or.inr ⟨modifier, hr, hmodifier⟩), hread⟩
    · rintro ⟨text', hs, hread⟩
      rcases splits_iff.1 hs with ⟨h, -⟩ | ⟨modifier', h, hmodifier⟩
      · rw [hr] at h
        cases h
      · rw [hr] at h
        cases h
        exact (htext _ _).2 ⟨hmodifier, hread⟩
  | unknown indent label => simp [splits_iff, hr]

/-- A body names the text that it splits into. -/
theorem names_iff_of_splits {body text : List Char} {modifier : Option Modifier} {name : String}
    (h : Splits body modifier text) : Names body name ↔ String.ofList (trim text) = name := by
  constructor
  · rintro ⟨modifier', text', h', rfl⟩
    rw [(h.unique h').2]
  · intro hname
    exact ⟨modifier, text, h, hname⟩

/-- A body that is read uses the argument that it names. -/
theorem uses_iff_of_readBody {named : List NamedArgument} {place : Span → Span} {body : List Char} {span : Span}
    {placeholder : Placeholder} (h : readBody named place body span = .ok placeholder) (name : String) :
    placeholder.uses = some name ↔ (∃ argument ∈ named, argument.name = name) ∧ Names body name := by
  obtain ⟨text, hs, -, hu⟩ := readBody_eq_ok_iff.1 h
  rw [hu, usedName?_eq_some_iff, names_iff_of_splits hs]

/-- A text that stands for an expression is acceptable, and the other way round wherever it stands. -/
theorem acceptable_iff {named : List NamedArgument} {body : List Char} (place : Span) :
    Acceptable named body ↔
      ∃ modifier text expression, Splits body modifier text ∧ Denotes named text place expression := by
  constructor
  · rintro ⟨name, ⟨modifier, text, hs, rfl⟩, haccept⟩
    by_cases hnamed : ∃ argument ∈ named, argument.name = String.ofList (trim text)
    · obtain ⟨argument, hm, hname⟩ := hnamed
      exact ⟨modifier, text, _, hs, .argument hm hname⟩
    · obtain ⟨other, expression, hparse⟩ := haccept.resolve_left hnamed
      obtain ⟨expression, hparse⟩ := parse_ok_of_parse_ok hparse place
      have hnone : ∀ argument ∈ named, argument.name ≠ String.ofList (trim text) :=
        fun argument hm hname => hnamed ⟨argument, hm, hname⟩
      exact ⟨modifier, text, expression, hs, .expression hnone hparse⟩
  · rintro ⟨modifier, text, expression, hs, hdenotes⟩
    refine ⟨_, ⟨modifier, text, hs, rfl⟩, ?_⟩
    cases hdenotes with
    | argument hm hname => exact Or.inl ⟨_, hm, hname⟩
    | expression _ hparse => exact Or.inr ⟨place, expression, hparse⟩

/-! ## Reading the pieces -/

/-- A piece that was read as a character, or as an expression with its modifier. -/
def piecePart : Char ⊕ Placeholder → Char ⊕ (Expression × Option Modifier)
  | .inl c => .inl c
  | .inr placeholder => .inr (placeholder.expression, placeholder.modifier)

/-- The piece of an item is read as what the item stands for. -/
theorem readsItem_of_readPiece {named : List NamedArgument} (hd : (named.map (·.name)).Nodup) {place : Span → Span}
    {item : Located Item} {piece : Char ⊕ Placeholder} (h : readPiece named place (locatedPiece item) = .ok piece) :
    ReadsItem named place item (piecePart piece) := by
  obtain ⟨item, span⟩ := item
  cases item with
  | opening =>
    cases h
    exact .opening span
  | closing =>
    cases h
    exact .closing span
  | character c =>
    cases h
    exact .character c span
  | placeholder body =>
    obtain ⟨placeholder, hread, rfl⟩ := Outcome.map_eq_ok_iff.1 h
    obtain ⟨text, hs, hresolve, -⟩ := readBody_eq_ok_iff.1 hread
    exact .placeholder hs ((resolve_eq_ok_iff hd).1 hresolve)

/-- What an item stands for is read from its piece. -/
theorem exists_readPiece {named : List NamedArgument} (hd : (named.map (·.name)).Nodup) {place : Span → Span}
    {item : Located Item} {part : Char ⊕ (Expression × Option Modifier)} (h : ReadsItem named place item part) :
    ∃ piece, readPiece named place (locatedPiece item) = .ok piece ∧ piecePart piece = part := by
  cases h with
  | opening span => exact ⟨.inl '{', rfl, rfl⟩
  | closing span => exact ⟨.inl '}', rfl, rfl⟩
  | character c span => exact ⟨.inl c, rfl, rfl⟩
  | @placeholder body text span modifier expression hs hdenotes =>
    have hread : readBody named place body span = .ok ⟨expression, modifier, usedName? named text⟩ :=
      readBody_eq_ok_iff.2 ⟨text, hs, (resolve_eq_ok_iff hd).2 hdenotes, rfl⟩
    exact ⟨_, Outcome.map_eq_ok_iff.2 ⟨_, hread, rfl⟩, rfl⟩

/-- A piece that is read is at no fault. -/
theorem isFault_of_readPiece {named : List NamedArgument} {place : Span → Span} {located : Located Piece}
    {piece : Char ⊕ Placeholder} (h : readPiece named place located = .ok piece) : located.value.isFault = false := by
  obtain ⟨value, span⟩ := located
  cases value with
  | character c => rfl
  | placeholder body => rfl
  | unterminated => cases h
  | unmatched => cases h

/-- The pieces of a row of items are read as what the items stand for. -/
theorem exists_pieces_iff {named : List NamedArgument} (hd : (named.map (·.name)).Nodup) {place : Span → Span}
    {items : List (Located Item)} {parts : List (Char ⊕ (Expression × Option Modifier))} :
    (∃ pieces, (items.map locatedPiece).mapM (readPiece named place) = .ok pieces ∧ pieces.map piecePart = parts) ↔
      List.Forall₂ (ReadsItem named place) items parts := by
  constructor
  · rintro ⟨pieces, hread, rfl⟩
    have hall := List.forall₂_map_left_iff.1 (Outcome.mapM_eq_ok_iff.1 hread)
    exact List.forall₂_map_right_iff.2 (hall.imp fun _ _ => readsItem_of_readPiece hd)
  · intro h
    induction h with
    | nil => exact ⟨[], rfl, rfl⟩
    | cons hitem _ ih =>
      obtain ⟨piece, hpiece, rfl⟩ := exists_readPiece hd hitem
      obtain ⟨pieces, hread, rfl⟩ := ih
      refine ⟨piece :: pieces, Outcome.mapM_eq_ok_iff.2 ?_, rfl⟩
      exact .cons hpiece (Outcome.mapM_eq_ok_iff.1 hread)

/-- The located items are the items. -/
theorem map_value_locate (offset : Nat) (items : List Item) : (locate offset items).map (·.value) = items := by
  induction items generalizing offset with
  | nil => rfl
  | cons item items ih => rw [locate, List.map_cons, ih]

/-- An item stands for something if it is no placeholder, or an acceptable one. -/
theorem exists_readsItem {named : List NamedArgument} {item : Item}
    (h : ∀ body, item = .placeholder body → Acceptable named body) (place : Span → Span) (span : Span) :
    ∃ part, ReadsItem named place ⟨item, span⟩ part := by
  cases item with
  | opening => exact ⟨_, .opening span⟩
  | closing => exact ⟨_, .closing span⟩
  | character c => exact ⟨_, .character c span⟩
  | placeholder body =>
    obtain ⟨modifier, text, expression, hs, hdenotes⟩ := (acceptable_iff (place span)).1 (h body rfl)
    exact ⟨_, .placeholder hs hdenotes⟩

/-- A row of items stands for something exactly if each body is acceptable. -/
theorem exists_parts_iff {named : List NamedArgument} {place : Span → Span} {items : List Item} (offset : Nat) :
    (∃ parts, List.Forall₂ (ReadsItem named place) (locate offset items) parts) ↔
      ∀ body, .placeholder body ∈ items → Acceptable named body := by
  induction items generalizing offset with
  | nil => exact ⟨fun _ body h => absurd h List.not_mem_nil, fun _ => ⟨[], .nil⟩⟩
  | cons item items ih =>
    constructor
    · rintro ⟨parts, h⟩ body hm
      cases h with
      | cons hitem hrest =>
        rcases List.mem_cons.1 hm with rfl | hm
        · cases hitem with
          | placeholder hs hdenotes => exact (acceptable_iff _).2 ⟨_, _, _, hs, hdenotes⟩
        · exact (ih _).1 ⟨_, hrest⟩ body hm
    · intro h
      obtain ⟨parts, hrest⟩ := (ih (offset + byteLength item.spelling)).2
        (fun body hm => h body (List.mem_cons_of_mem item hm))
      obtain ⟨part, hpart⟩ := exists_readsItem (fun body hbody => h body (hbody ▸ List.mem_cons_self)) place
        ⟨offset, offset + byteLength item.spelling⟩
      exact ⟨part :: parts, .cons hpart hrest⟩

/-- An argument is used by what a row of items is read as exactly if a body names it. -/
theorem exists_uses_iff {named : List NamedArgument} {place : Span → Span} {items : List (Located Item)}
    {pieces : List (Char ⊕ Placeholder)} (h : (items.map locatedPiece).mapM (readPiece named place) = .ok pieces)
    {argument : NamedArgument} (hm : argument ∈ named) :
    (∃ placeholder, .inr placeholder ∈ pieces ∧ placeholder.uses = some argument.name) ↔
      ∃ body, .placeholder body ∈ items.map (·.value) ∧ Names body argument.name := by
  have hall := List.forall₂_map_left_iff.1 (Outcome.mapM_eq_ok_iff.1 h)
  clear h
  induction hall with
  | nil => simp
  | @cons item piece items pieces hpiece _ ih =>
    obtain ⟨item, span⟩ := item
    -- Only a placeholder uses an argument, and it does so exactly if its body names that argument.
    have hhead : (∃ placeholder, .inr placeholder = piece ∧ placeholder.uses = some argument.name) ↔
        ∃ body, .placeholder body = item ∧ Names body argument.name := by
      cases item with
      | placeholder body =>
        obtain ⟨placeholder, hread, rfl⟩ := Outcome.map_eq_ok_iff.1 hpiece
        have huses := uses_iff_of_readBody hread argument.name
        have hnamed : ∃ other ∈ named, other.name = argument.name := ⟨argument, hm, rfl⟩
        constructor
        · rintro ⟨_, heq, hu⟩
          cases heq
          exact ⟨body, rfl, (huses.1 hu).2⟩
        · rintro ⟨_, heq, hn⟩
          cases heq
          exact ⟨placeholder, rfl, huses.2 ⟨hnamed, hn⟩⟩
      | opening => cases hpiece; simp
      | closing => cases hpiece; simp
      | character c => cases hpiece; simp
    simp only [List.map_cons, List.mem_cons, or_and_right, exists_or, ih, hhead]

/-! ## Gathering what was read -/

/-- Different parts of a template are told apart. -/
theorem segmentPart_injective : Function.Injective segmentPart := by
  intro a b h
  cases a <;> cases b <;> cases h <;> rfl

/-- The literal part of a run is its text. -/
theorem map_segmentPart_literalOf (run : List Char) : (literalOf run).map segmentPart = Runs.literalOf run := by
  cases run <;> rfl

/-- Gathering pieces into a template is gathering runs. -/
theorem map_segmentPart_gather (run : List Char) (pieces : List (Char ⊕ Placeholder)) :
    (gather run pieces).map segmentPart = Runs.gather run (pieces.map piecePart) := by
  induction pieces generalizing run with
  | nil => exact map_segmentPart_literalOf run.reverse
  | cons piece pieces ih =>
    cases piece with
    | inl c => exact ih (c :: run)
    | inr placeholder =>
      rw [gather, List.map_append, map_segmentPart_literalOf, List.map_cons, ih]
      rfl

/-- A template is gathered from pieces exactly if its parts are merged and spread out to them. -/
theorem gather_eq_iff {pieces : List (Char ⊕ Placeholder)} {segments : List Segment} :
    gather [] pieces = segments ↔
      Runs.Merged (segments.map segmentPart) ∧ Runs.spread (segments.map segmentPart) = pieces.map piecePart := by
  rw [← (List.map_injective_iff.2 segmentPart_injective).eq_iff, map_segmentPart_gather, Runs.gather_eq_iff]

/-- Every part is one of a template. -/
theorem segmentPart_surjective : Function.Surjective segmentPart := by
  intro part
  cases part with
  | inl text => exact ⟨.literal text, rfl⟩
  | inr found => exact ⟨.placeholder found.1 found.2, rfl⟩

/-- What acceptable items stand for is a template. -/
theorem exists_reads {named : List NamedArgument} {value : List Char} {items : List Item}
    (h : Accepted named value items) (place : Span → Span) : ∃ template, Reads named place items template := by
  obtain ⟨parts, hparts⟩ : ∃ parts, List.Forall₂ (ReadsItem named place) (locate 0 items) parts :=
    (exists_parts_iff 0).2 h.acceptable
  obtain ⟨segments, hsegments⟩ := List.map_surjective_iff.2 segmentPart_surjective (Runs.gather [] parts)
  obtain ⟨hmerged, hspread⟩ := Runs.gather_eq_iff.1 hsegments.symm
  refine ⟨⟨segments⟩, hmerged, ?_⟩
  rw [hspread]
  exact hparts

/-! ## Reading a value -/

/-- A value is read exactly if no name is given twice, all its pieces are read, and every argument is used. -/
theorem read_eq_ok_iff {value : List Char} {named : List NamedArgument} {place : Span → Span} {template : Template} :
    read value named place = .ok template ↔
      firstDuplicate? [] named = none ∧
        ∃ pieces, (cut value).mapM (readPiece named place) = .ok pieces ∧ firstUnused? named pieces = none ∧
          gather [] pieces = template.segments := by
  unfold read
  cases firstDuplicate? [] named with
  | some argument => simp
  | none =>
    simp only [true_and]
    rw [Outcome.bind_eq_ok_iff]
    refine exists_congr fun pieces => and_congr_right fun _ => ?_
    obtain ⟨segments⟩ := template
    cases firstUnused? named pieces with
    | some argument => simp
    | none => simp

/-- A value is read as a template exactly if it is an accepted row of items that stands for the template. -/
theorem read_eq_ok_iff_reads {value : List Char} {named : List NamedArgument} {place : Span → Span}
    {template : Template} :
    read value named place = .ok template ↔
      ∃ items, Accepted named value items ∧ Reads named place items template := by
  rw [read_eq_ok_iff]
  constructor
  · rintro ⟨hduplicate, pieces, hread, hunused, hgather⟩
    have hd := (firstDuplicate?_eq_none_iff.1 hduplicate).1
    have hsound : ∀ located ∈ cut value, located.value.isFault = false := by
      have hall := Outcome.mapM_eq_ok_iff.1 hread
      exact ((List.forall₂_and_left _ _).1 (hall.imp fun _ _ h => ⟨isFault_of_readPiece h, h⟩)).1
    obtain ⟨items, hitems⟩ := exists_decomposes hsound
    rw [cut_eq_of_decomposes hitems] at hread
    have hparts := (exists_pieces_iff hd).1 ⟨pieces, hread, rfl⟩
    have hused := firstUnused?_eq_none_iff.1 hunused
    refine ⟨items, ⟨hd, hitems, (exists_parts_iff 0).1 ⟨_, hparts⟩, fun argument hm => ?_⟩, ?_⟩
    · have hbody := (exists_uses_iff hread hm).1 (hused argument hm)
      rwa [map_value_locate] at hbody
    · obtain ⟨hmerged, hspread⟩ := gather_eq_iff.1 hgather
      exact ⟨hmerged, hspread ▸ hparts⟩
  · rintro ⟨items, haccepted, hmerged, hparts⟩
    obtain ⟨pieces, hread, hspread⟩ := (exists_pieces_iff haccepted.distinct).2 hparts
    refine ⟨firstDuplicate?_eq_none_iff.2 ⟨haccepted.distinct, fun _ _ => List.not_mem_nil⟩, pieces, ?_, ?_,
      gather_eq_iff.2 ⟨hmerged, hspread.symm⟩⟩
    · rw [cut_eq_of_decomposes haccepted.decomposes]
      exact hread
    · refine firstUnused?_eq_none_iff.2 fun argument hm => (exists_uses_iff hread hm).2 ?_
      rw [map_value_locate]
      exact haccepted.used argument hm

/-- Reading takes exactly the grammar: a value is a row of items in one way at most, it is read exactly if it is an accepted
row of items, and it is then read as exactly the template that these items stand for. -/
theorem read_iff_grammar (value : List Char) (named : List NamedArgument) (place : Span → Span) :
    (∀ items items', Decomposes value items → Decomposes value items' → items = items') ∧
      ((∃ template, read value named place = .ok template) ↔ ∃ items, Accepted named value items) ∧
      ∀ items template, Accepted named value items →
        (read value named place = .ok template ↔ Reads named place items template) := by
  refine ⟨fun _ _ h h' => h.unique h', ⟨?_, ?_⟩, fun items template haccepted => ⟨?_, ?_⟩⟩
  · rintro ⟨template, h⟩
    obtain ⟨items, haccepted, -⟩ := read_eq_ok_iff_reads.1 h
    exact ⟨items, haccepted⟩
  · rintro ⟨items, haccepted⟩
    obtain ⟨template, hreads⟩ := exists_reads haccepted place
    exact ⟨template, read_eq_ok_iff_reads.2 ⟨items, haccepted, hreads⟩⟩
  · intro h
    obtain ⟨items', haccepted', hreads⟩ := read_eq_ok_iff_reads.1 h
    rwa [haccepted.decomposes.unique haccepted'.decomposes]
  · intro hreads
    exact read_eq_ok_iff_reads.2 ⟨items, haccepted, hreads⟩

/-- A doubled brace in front of a placeholder, which is labelled and names an argument. -/
theorem read_iff_grammar_doubled :
    Accepted [⟨"n", ⟨0, 1⟩, []⟩] "\x7b\x7b\x7bpublic: n\x7d%".toList
        [.opening, .placeholder "public: n".toList, .character '%'] ∧
      read "\x7b\x7b\x7bpublic: n\x7d%".toList [⟨"n", ⟨0, 1⟩, []⟩] id =
        .ok ⟨[.literal "\x7b", .placeholder (Expression.binding "n" ⟨0, 1⟩) (some .shown), .literal "%"]⟩ := by
  have hbalanced : Balanced "public: n".toList := by
    have hs : splitBody 0 "public: n\x7d".toList = some ("public: n".toList, []) := by decide
    exact balanced_iff_closes.2 (splitBody_eq_some_iff.1 hs).2
  have hs : Splits "public: n".toList (some .shown) " n".toList :=
    .shown ⟨"public".toList, by decide, by decide, by decide, by decide⟩
  have hnames : Names "public: n".toList "n" := ⟨_, _, hs, by decide⟩
  have haccepted : Accepted [⟨"n", ⟨0, 1⟩, []⟩] "\x7b\x7b\x7bpublic: n\x7d%".toList
      [.opening, .placeholder "public: n".toList, .character '%'] := by
    refine ⟨by decide, ⟨?_, by decide⟩, ?_, ?_⟩
    · simp only [List.forall_mem_cons]
      exact ⟨trivial, ⟨hbalanced, by decide⟩, ⟨by decide, by decide⟩, fun _ h => absurd h List.not_mem_nil⟩
    · intro body hm
      obtain rfl : body = "public: n".toList := by simpa using hm
      exact ⟨"n", hnames, Or.inl ⟨_, List.mem_cons_self, rfl⟩⟩
    · intro argument hm
      obtain rfl := List.mem_singleton.1 hm
      exact ⟨_, by simp, hnames⟩
  have hdenotes : ∀ place, Denotes [⟨"n", ⟨0, 1⟩, []⟩] " n".toList place (Expression.binding "n" ⟨0, 1⟩) := by
    intro place
    exact @Denotes.argument _ _ place ⟨"n", ⟨0, 1⟩, []⟩ List.mem_cons_self (by decide)
  refine ⟨haccepted, ((read_iff_grammar _ _ id).2.2 _ _ haccepted).2 ⟨?_, ?_⟩⟩
  · simp [Runs.Merged, segmentPart]
  · simp only [List.map_cons, List.map_nil, segmentPart, Runs.spread, String.reduceToList, List.cons_append,
      List.nil_append, locate]
    exact .cons (.opening _) (.cons (.placeholder hs (hdenotes _)) (.cons (.character _ _) .nil))

end PrivateLog.Template
