import PrivateLog.Proofs.Outcome
import PrivateLog.Proofs.Value.Forms
import PrivateLog.Record

/-!
# Rendering into a builder

What a format is rendered into is a `Builder`: it takes one text after another, and nothing else is known about it. Values
write themselves to it piece by piece (`Value.send`), and `build` walks over a format and hands the builder on from piece to
piece. Whatever the builder, the writes are those that the format, the arguments and the reveal flag determine
(`build_eq`), and an error comes before the first of them. Texts and records are two such builders (`renderOnto_eq_build`,
`render_eq_build`), so they receive the same writes.
-/

namespace PrivateLog

/-- Something that texts are written to one after another. -/
structure Builder (σ : Type) where
  write : σ → String → σ

namespace Builder

/-- A text grows by what is written to it. -/
def text : Builder String := ⟨fun written part => written ++ part⟩

/-- A record gets a part for each write. -/
def record : Builder Record := ⟨Record.add⟩

/-- What is written to a text comes behind it. -/
theorem foldl_text (start : String) (writes : List String) : writes.foldl text.write start = start ++ String.join writes := by
  induction writes generalizing start with
  | nil => simp
  | cons part writes ih =>
    rw [List.foldl_cons, ih, String.join_cons, ← String.append_assoc]
    rfl

/-- What is written to a record are parts behind its own. -/
theorem foldl_record (start : Record) (writes : List String) :
    writes.foldl record.write start = { start with parts := start.parts ++ writes } := by
  induction writes generalizing start with
  | nil => simp
  | cons part writes ih =>
    rw [List.foldl_cons, ih]
    simp [record, Record.add]

end Builder

/-! ## Values that write themselves -/

namespace Value

variable {σ : Type} (builder : Builder σ)

mutual

/-- Writes a value to a builder, in full or with its private parts withheld. -/
def send : Value → Bool → σ → σ
  | .small n, _, s => builder.write s (String.ofList (display (.small n)))
  | .bool b, _, s => builder.write s (String.ofList (display (.bool b)))
  | .char c, _, s => builder.write s (String.ofList (display (.char c)))
  | .wide n, inFull, s => builder.write s (if inFull then String.ofList (display (.wide n)) else redactedText)
  | .float format bits, inFull, s =>
    builder.write s (if inFull then String.ofList (display (.float format bits)) else redactedText)
  | .text t, inFull, s => builder.write s (if inFull then t else redactedText)
  | .reference value, inFull, s => send value inFull s
  | .present value, inFull, s => builder.write (send value inFull (builder.write s "Some(")) ")"
  | .absent, _, s => builder.write s "None"
  | .list values, inFull, s => builder.write (sendAll true values inFull (builder.write s "[")) "]"
  | .declassified value, _, s => send value true s
  | .debugged value, inFull, s => builder.write s (if inFull then String.ofList (describe value) else redactedText)
  | .displayed value, inFull, s => builder.write s (if inFull then String.ofList (display value) else redactedText)

/-- Writes the elements of a list, with a comma in front of each but the first. -/
def sendAll (first : Bool) : List Value → Bool → σ → σ
  | [], _, s => s
  | value :: values, inFull, s =>
    sendAll false values inFull (send value inFull (if first then s else builder.write s ", "))

end

mutual

/-- A value writes to a builder what its form says, in this order. -/
theorem send_eq_foldl (value : Value) (inFull : Bool) (s : σ) :
    value.send builder inFull s = (form inFull value).foldl builder.write s := by
  cases value with
  | reference value =>
    rw [send, send_eq_foldl value]
    cases inFull <;> rfl
  | present value =>
    rw [send, send_eq_foldl value]
    cases inFull <;> simp [form, full, redacted, presentWrites]
  | declassified value =>
    rw [send, send_eq_foldl value]
    cases inFull <;> rfl
  | list values =>
    rw [send, form_list, listWrites]
    cases values with
    | nil => rfl
    | cons first rest =>
      rw [sendAll, sendAll_eq_foldl rest, send_eq_foldl first, List.map_cons, flatten_intersperse_cons]
      simp [List.flatMap_map]
  | small n => cases inFull <;> rfl
  | wide n => cases inFull <;> rfl
  | bool b => cases inFull <;> rfl
  | char c => cases inFull <;> rfl
  | float format bits => cases inFull <;> rfl
  | text t => cases inFull <;> rfl
  | absent => cases inFull <;> rfl
  | debugged value => cases inFull <;> rfl
  | displayed value => cases inFull <;> rfl

/-- Elements behind the first one write a comma and what their form says. -/
theorem sendAll_eq_foldl (values : List Value) (inFull : Bool) (s : σ) :
    sendAll builder false values inFull s = (values.flatMap fun value => ", " :: form inFull value).foldl builder.write s := by
  cases values with
  | nil => rfl
  | cons value values =>
    rw [sendAll, sendAll_eq_foldl values, send_eq_foldl value]
    simp

end

end Value

/-! ## Formats -/

namespace Format

variable {σ : Type} (builder : Builder σ) (format : String) (arguments : List Value) (reveal : Bool)

/-- Writes pieces to a builder, each marker taking the next argument. -/
def buildPieces : List Piece → List Value → σ → σ
  | [], _, s => s
  | .literal text :: pieces, arguments, s => buildPieces pieces arguments (builder.write s text)
  | .value policy :: pieces, argument :: arguments, s =>
    buildPieces pieces arguments (argument.send builder (policy = .shown || reveal) s)
  | .value _ :: pieces, [], s => buildPieces pieces [] s

/-- Renders a format into a builder: what has become of the builder, and the error if there is one. -/
def build (s : σ) : σ × Option Error :=
  match parse format with
  | .error error => (s, some error)
  | .ok pieces =>
    if markerCount pieces = arguments.length then (buildPieces builder reveal pieces arguments s, none)
    else (s, some (.argumentCount (markerCount pieces) arguments.length))

/-- Pieces write to a builder what their writes say. -/
theorem buildPieces_eq_foldl (pieces : List Piece) (arguments : List Value) (s : σ) :
    buildPieces builder reveal pieces arguments s = (writes reveal pieces arguments).foldl builder.write s := by
  induction pieces generalizing arguments s with
  | nil => rfl
  | cons piece pieces ih =>
    cases piece with
    | literal text => rw [buildPieces, ih, writes, List.foldl_cons]
    | value policy =>
      cases arguments with
      | nil => rw [buildPieces, ih, writes]
      | cons argument arguments =>
        rw [buildPieces, ih, Value.send_eq_foldl, writes, List.foldl_append]
        rfl

/-- A format has a rendering exactly if it is read and has a marker for each argument. -/
theorem render_eq_ok_iff {written : List String} :
    render format arguments reveal = .ok written ↔
      ∃ pieces, parse format = .ok pieces ∧ markerCount pieces = arguments.length ∧
        writes reveal pieces arguments = written := by
  rw [render, Outcome.bind_eq_ok_iff]
  refine exists_congr fun pieces => and_congr_right fun _ => ?_
  split <;> simp [*]

/-- Otherwise it has the error of reading it, or the numbers of markers and arguments are the error. -/
theorem render_eq_error_iff {e : Error} :
    render format arguments reveal = .error e ↔
      parse format = .error e ∨
        ∃ pieces, parse format = .ok pieces ∧ markerCount pieces ≠ arguments.length ∧
          e = .argumentCount (markerCount pieces) arguments.length := by
  rw [render]
  cases parse format with
  | error e' => simp
  | ok pieces =>
    rw [Outcome.ok_bind]
    split
    · simp [*]
    · simp [*, throw, throwThe, MonadExceptOf.throw, @eq_comm _ e]

/-- A builder receives the writes of the rendering, or with an error none at all. -/
theorem build_eq (s : σ) :
    build builder format arguments reveal s =
      match render format arguments reveal with
      | .ok written => (written.foldl builder.write s, none)
      | .error e => (s, some e) := by
  rw [build, render]
  cases parse format with
  | error e => rfl
  | ok pieces =>
    rw [Outcome.ok_bind]
    simp only
    split
    · rw [buildPieces_eq_foldl]
      rfl
    · rfl

/-- Rendering behind a text is rendering into it. -/
theorem renderOnto_eq_build (start : String) :
    renderOnto start format arguments reveal = build Builder.text format arguments reveal start := by
  rw [renderOnto, build_eq]
  cases render format arguments reveal with
  | error e => rfl
  | ok written => simp [Builder.foldl_text]

/-- Rendering behind a record is rendering into it. -/
theorem render_eq_build (record : Record) :
    record.render format arguments reveal =
      match build Builder.record format arguments reveal record with
      | (record, none) => .ok record
      | (_, some e) => .error e := by
  rw [Record.render, build_eq]
  cases render format arguments reveal with
  | error e => rfl
  | ok written => simp [Builder.foldl_record]

/-- Rendering is atomic and the same for every builder, and a record is never lost. A builder receives the writes of the
rendering, which depend on the format, the arguments and the reveal flag only, or with an error none at all. There is a
rendering exactly if the format is read and has a marker for each argument; otherwise the error is that of reading it, or the
two numbers. A text gets the joined writes behind it and a record gets them as parts, and its severity stays. A message that
cannot be rendered leaves one part in the record, with the format and the error. -/
theorem build_atomic :
    ((∀ {σ : Type} (builder : Builder σ) (s : σ),
      build builder format arguments reveal s =
        match render format arguments reveal with
        | .ok written => (written.foldl builder.write s, none)
        | .error e => (s, some e)) ∧
      (∀ start, renderOnto start format arguments reveal = build Builder.text format arguments reveal start) ∧
      ∀ record : Record, record.render format arguments reveal =
        match build Builder.record format arguments reveal record with
        | (record, none) => .ok record
        | (_, some e) => .error e) ∧
    ((∃ written, render format arguments reveal = .ok written) ↔
      ∃ pieces, parse format = .ok pieces ∧ markerCount pieces = arguments.length) ∧
    (∀ e, render format arguments reveal = .error e ↔
      parse format = .error e ∨
        ∃ pieces, parse format = .ok pieces ∧ markerCount pieces ≠ arguments.length ∧
          e = .argumentCount (markerCount pieces) arguments.length) ∧
    (∀ written, render format arguments reveal = .ok written →
      renderText format arguments reveal = .ok (String.join written) ∧
        (∀ start, build Builder.text format arguments reveal start = (start ++ String.join written, none)) ∧
        ∀ record : Record, build Builder.record format arguments reveal record =
          ({ record with parts := record.parts ++ written }, none)) ∧
    (∀ e, render format arguments reveal = .error e → renderText format arguments reveal = .error e) ∧
    ∀ record : Record,
      (record.format format arguments reveal).severity = record.severity ∧
        (record.format format arguments reveal).parts = record.parts ++
          match render format arguments reveal with
          | .ok written => written
          | .error e =>
            ["<malformed log format " ++ String.ofList (Text.quote '"' format.toList) ++ ": " ++ e.message ++ ">"] := by
  refine ⟨⟨fun builder s => build_eq builder format arguments reveal s, renderOnto_eq_build format arguments reveal,
    render_eq_build format arguments reveal⟩, ?_, fun e => render_eq_error_iff format arguments reveal,
    fun written h => ⟨?_, fun start => ?_, fun record => ?_⟩, fun e h => ?_, fun record => ?_⟩
  · simp only [render_eq_ok_iff]
    exact ⟨fun ⟨_, pieces, hp, hc, _⟩ => ⟨pieces, hp, hc⟩, fun ⟨pieces, hp, hc⟩ => ⟨_, pieces, hp, hc, rfl⟩⟩
  · rw [renderText, h]
    rfl
  · rw [build_eq, h]
    simp [Builder.foldl_text]
  · rw [build_eq, h]
    simp [Builder.foldl_record]
  · rw [renderText, h]
    rfl
  · rw [Record.format, Record.render]
    cases render format arguments reveal with
    | error e => exact ⟨rfl, rfl⟩
    | ok written => exact ⟨rfl, rfl⟩

/-- A list with a private element, and a marker too many. -/
theorem build_atomic_list :
    (render "%s is %\x7bpublic\x7ds%%" ([.list [.small 1, .wide 700], .text "on"] : List Value) false =
        .ok ["[", "1", ", ", "<private>", "]", " is ", "on", "%"] ∧
      build Builder.text "%s is %\x7bpublic\x7ds%%" [.list [.small 1, .wide 700], .text "on"] false "now " =
        ("now [1, <private>] is on%", none)) ∧
    render "%s is %s" ([.text "on"] : List Value) true = .error (.argumentCount 2 1) ∧
    renderText "%s is %s" ([.text "on"] : List Value) true = .error (.argumentCount 2 1) := by
  have hrender : render "%s is %\x7bpublic\x7ds%%" ([.list [.small 1, .wide 700], .text "on"] : List Value) false =
      .ok ["[", "1", ", ", "<private>", "]", " is ", "on", "%"] := by
    decide +kernel
  have herror : render "%s is %s" ([.text "on"] : List Value) true = .error (.argumentCount 2 1) := by
    decide +kernel
  obtain ⟨-, -, -, hok, -, -⟩ := build_atomic "%s is %\x7bpublic\x7ds%%" [.list [.small 1, .wide 700], .text "on"] false
  obtain ⟨-, -, -, -, hfail, -⟩ := build_atomic "%s is %s" [.text "on"] true
  exact ⟨⟨hrender, (hok _ hrender).2.1 "now "⟩, herror, hfail _ herror⟩

end Format

end PrivateLog
