import PrivateLog.Expansion
import PrivateLog.Proofs.Expansion.Code
import PrivateLog.Proofs.Value.Forms

/-!
# The outline of a logging call

The code of a logging call is an outline around the parts of the user: the values of the named arguments, the arguments of the
rendering and the logger. `outline` is laid out for parts of any type, so it neither looks at them nor repeats them on its own
account, and the code is the outline with the tokens of the parts in their places (`expand_eq_fillAll`). From left to right the
parts are the values, the arguments and the logger (`parts_outline`), each alone between round brackets (`enclosed_outline`).
-/

namespace PrivateLog.Expansion

open Code

variable {α : Type}

/-! ## The layout -/

/-- Rows of code with a comma between them. -/
def separatedCode (rows : List (List (Code α))) : List (Code α) :=
  (rows.intersperse (ofTokens (operator ","))).flatten

/-- Rows of code with a comma behind each. -/
def terminatedCode (rows : List (List (Code α))) : List (Code α) :=
  rows.flatMap (· ++ ofTokens (operator ","))

/-- A reference to a part, alone between round brackets. -/
def partReference (part : α) : List (Code α) :=
  ofTokens (operator "&") ++ [.group .parenthesis [.hole part]]

/-- A part as an argument of the rendering. -/
def partArgument (part : α) : List (Code α) :=
  partReference part ++ ofTokens (word "as" ++ operator "&" ++ word "dyn" ++ path ["loggable", "privacy", "Loggable"])

/-- The call that renders the record: from where it begins, the format as a literal, and the arguments. -/
def rendered (severity : Severity) (format : String) (arguments : List α) : List (Code α) :=
  let start := separated [Expansion.severity severity, location "file", location "line", location "column"]
  let begun := path ["loggable", "hidden", "log_pre"] ++ parentheses start
  ofTokens (path ["loggable", "hidden", "log_format"]) ++
    [.group .parenthesis (ofTokens (terminated [begun, formatLiteral format] ++ operator "&") ++
      [.group .bracket (separatedCode (arguments.map partArgument))] ++ ofTokens (operator ","))]

/-- Code in a `match` on the tuple of some values, of which the pattern lists the local of each in the same order; without any
values, the code as it is. -/
def matched (bound : List (String × α)) (code : List (Code α)) : List (Code α) :=
  if bound.isEmpty then code
  else
    let values := terminatedCode (bound.map fun entry => partReference entry.2)
    let locals := terminated (bound.map fun entry => word entry.1)
    ofTokens (word "match") ++ [.group .parenthesis values] ++
      [.group .brace (ofTokens (parentheses locals ++ operator "=>") ++ code ++ ofTokens (operator ","))]

/-- The statement that keeps what is rendered as the record. -/
def recorded (rendering : List (Code α)) : List (Code α) :=
  ofTokens (word "let" ++ word "record" ++ operator "=") ++ [.group .brace rendering] ++ ofTokens (operator ";")

/-- What the functions that hand a record on are called, by how they do it. -/
def suffix : Delivery → String
  | .immediate => ""
  | .awaited => "_async"

/-- The tokens that wait for a record to be handed on. -/
def waiting : Delivery → List Token
  | .immediate => []
  | .awaited => operator "." ++ word "await"

/-- The call that hands the record on. -/
def posted (logger : Option α) (delivery : Delivery) : List (Code α) :=
  match logger with
  | none => ofTokens (path ["loggable", "hidden", "log_post" ++ suffix delivery] ++ parentheses (word "record"))
  | some logger =>
    ofTokens (path ["loggable", "hidden", "log_post_to" ++ suffix delivery]) ++
      [.group .parenthesis (partReference logger ++ ofTokens (operator "," ++ word "record"))]

/-- The condition of the call, token by token: `loggable::severity_enabled!(loggable::Severity::Info)`, with the severity in
question. -/
def condition (severity : Severity) : List Token :=
  let name := match severity with
    | .debug => "Debug"
    | .info => "Info"
    | .notice => "Notice"
    | .error => "Error"
    | .fault => "Fault"
  [.ident "loggable", .punct ':' .joint, .punct ':' .alone, .ident "severity_enabled", .punct '!' .alone,
    .group .parenthesis
      [.ident "loggable", .punct ':' .joint, .punct ':' .alone, .ident "Severity", .punct ':' .joint, .punct ':' .alone,
        .ident name]]

/-- A block that does nothing unless the severity is enabled. -/
def guarded (severity : Severity) (code : List (Code α)) : List (Code α) :=
  [.group .brace (ofTokens (.ident "if" :: condition severity) ++ [.group .brace code])]

/-- The code of a logging call around the parts of the user: a value for each local, the arguments, and the logger if there is
one. -/
def outline (severity : Severity) (format : String) (bound : List (String × α)) (arguments : List α) (logger : Option α)
    (delivery : Delivery) : List (Code α) :=
  guarded severity
    (recorded (matched bound (rendered severity format arguments)) ++
      (posted logger delivery ++ ofTokens (waiting delivery ++ operator ";")))

/-- The locals of the named arguments, each with the tokens of the value that it gets. -/
def taken (named : List NamedArgument) : List (String × List Token) :=
  named.map fun argument => (Expression.localName argument.name, argument.value)

/-- The outline around the tokens of the user in a call. -/
def callOutline (call : CompiledCall) (logger : Option (List Token)) (named : List NamedArgument) (delivery : Delivery) :
    List (Code (List Token)) :=
  outline call.severity call.format (taken named) (call.arguments.map (·.tokens)) logger delivery

/-! ## Rows of code -/

/-- A function that takes code apart goes to each of some rows and to what is between them. -/
theorem map_flatten_intersperse_of_append {β : Type} {f : List (Code α) → List β} (hnil : f [] = [])
    (happend : ∀ a b, f (a ++ b) = f a ++ f b) (separator : List (Code α)) (rows : List (List (Code α))) :
    f (rows.intersperse separator).flatten = ((rows.map f).intersperse (f separator)).flatten := by
  have hflatMap : ∀ rest : List (List (Code α)), f (rest.flatMap (separator ++ ·)) = rest.flatMap (f separator ++ f ·) := by
    intro rest
    induction rest with
    | nil => simpa using hnil
    | cons row rest ih => simp [happend, ih]
  cases rows with
  | nil => simpa using hnil
  | cons first rest =>
    simp [Value.flatten_intersperse_cons, happend, hflatMap, List.flatMap_map]

/-- A function that takes code apart goes to each of some rows and to the comma behind it. -/
theorem map_terminatedCode_of_append {β : Type} {f : List (Code α) → List β} (hnil : f [] = [])
    (happend : ∀ a b, f (a ++ b) = f a ++ f b) (rows : List (List (Code α))) :
    f (terminatedCode rows) = (rows.map f).flatMap (· ++ f (ofTokens (operator ","))) := by
  induction rows with
  | nil => simpa [terminatedCode] using hnil
  | cons row rows ih =>
    have hrow : terminatedCode (row :: rows) = row ++ ofTokens (operator ",") ++ terminatedCode rows := rfl
    rw [hrow, happend, happend, ih]
    simp

/-- What holds of some rows and of what is between them, and of two rows put together, holds of them all put together. -/
theorem flatten_intersperse_induction {β : Type} {P : List β → Prop} (hnil : P []) (happend : ∀ a b, P a → P b → P (a ++ b))
    {separator : List β} (hseparator : P separator) {rows : List (List β)} (hrows : ∀ row ∈ rows, P row) :
    P (rows.intersperse separator).flatten := by
  have hall : ∀ rest : List (List β), (∀ row ∈ rest, P row) → P (rest.flatMap (separator ++ ·)) := by
    intro rest hrest
    induction rest with
    | nil => exact hnil
    | cons row rest ih =>
      obtain ⟨hrow, hrest⟩ := List.forall_mem_cons.1 hrest
      exact happend _ _ (happend _ _ hseparator hrow) (ih hrest)
  cases rows with
  | nil => exact hnil
  | cons first rest =>
    obtain ⟨hfirst, hrest⟩ := List.forall_mem_cons.1 hrows
    rw [Value.flatten_intersperse_cons]
    exact happend _ _ hfirst (hall rest hrest)

/-- The same with something behind each row. -/
theorem flatMap_append_induction {β : Type} {P : List β → Prop} (hnil : P []) (happend : ∀ a b, P a → P b → P (a ++ b))
    {separator : List β} (hseparator : P separator) {rows : List (List β)} (hrows : ∀ row ∈ rows, P row) :
    P (rows.flatMap (· ++ separator)) := by
  induction rows with
  | nil => exact hnil
  | cons row rows ih =>
    obtain ⟨hrow, hrows⟩ := List.forall_mem_cons.1 hrows
    exact happend _ _ (happend _ _ hrow hseparator) (ih hrows)

/-! ## Filling the outline -/

variable (tokens : α → List Token)

theorem fillAll_separatedCode (rows : List (List (Code α))) :
    fillAll tokens (separatedCode rows) = separated (rows.map (fillAll tokens)) := by
  rw [separatedCode, map_flatten_intersperse_of_append rfl (fillAll_append tokens), fillAll_ofTokens]
  rfl

theorem fillAll_terminatedCode (rows : List (List (Code α))) :
    fillAll tokens (terminatedCode rows) = terminated (rows.map (fillAll tokens)) := by
  rw [map_terminatedCode_of_append rfl (fillAll_append tokens), fillAll_ofTokens]
  rfl

theorem fillAll_partReference (part : α) : fillAll tokens (partReference part) = reference (tokens part) := by
  simp [partReference, reference, parentheses]

theorem fillAll_rendered (call : CompiledCall) :
    fillAll id (rendered call.severity call.format (call.arguments.map (·.tokens))) = rendering call := by
  have harguments : fillAll id (separatedCode (call.arguments.map fun expression => partArgument expression.tokens)) =
      separated (call.arguments.map argument) := by
    rw [fillAll_separatedCode, List.map_map]
    refine congrArg separated (List.map_congr_left fun expression _ => ?_)
    simp [partArgument, argument, fillAll_partReference]
  simp [rendered, rendering, harguments, Function.comp_def, terminated, parentheses, brackets]

theorem fillAll_matched (named : List NamedArgument) (code : List (Code (List Token))) :
    fillAll id (matched (taken named) code) = bindingNamed named (fillAll id code) := by
  cases named with
  | nil => rfl
  | cons argument named =>
    simp [matched, taken, bindingNamed, fillAll_terminatedCode, fillAll_partReference, Function.comp_def, parentheses, braces]

/-- The condition asks whether the severity of the call is enabled. -/
theorem condition_eq (severity : Severity) :
    condition severity =
      path ["loggable", "severity_enabled"] ++ operator "!" ++ parentheses (Expansion.severity severity) := by
  cases severity <;> rfl

/-- The code of a call is its outline with the tokens of the user in their places. -/
theorem expand_eq_fillAll (call : CompiledCall) (logger : Option (List Token)) (named : List NamedArgument)
    (delivery : Delivery) :
    expand call logger named delivery = fillAll id (callOutline call logger named delivery) := by
  have hposted : handingOn logger delivery = fillAll id (posted logger delivery) ++ (waiting delivery ++ operator ";") := by
    cases logger <;> cases delivery <;>
      simp [posted, handingOn, waiting, suffix, fillAll_partReference, separated, parentheses]
  rw [callOutline, outline, guarded, recorded]
  simp [expand, hposted, fillAll_matched, fillAll_rendered, condition_eq, word, parentheses, braces]

/-! ## The parts, from left to right -/

theorem parts_separatedCode (rows : List (List (Code α))) : parts (separatedCode rows) = rows.flatMap parts := by
  rw [separatedCode, map_flatten_intersperse_of_append rfl parts_append, parts_ofTokens]
  cases rows with
  | nil => rfl
  | cons first rest => simp [Value.flatten_intersperse_cons, List.flatMap_map]

theorem parts_terminatedCode (rows : List (List (Code α))) : parts (terminatedCode rows) = rows.flatMap parts := by
  rw [map_terminatedCode_of_append rfl parts_append, List.flatMap_map]
  simp

theorem parts_partReference (part : α) : parts (partReference part) = [part] := by
  simp [partReference]

/-- The rendering holds the arguments. -/
theorem parts_rendered (severity : Severity) (format : String) (arguments : List α) :
    parts (rendered severity format arguments) = arguments := by
  have hargument : ∀ part : α, parts (partArgument part) = [part] := by
    intro part
    simp [partArgument, parts_partReference]
  simp [rendered, parts_separatedCode, List.flatMap_map, hargument]

/-- The values are in front of what the code around which they are taken holds. -/
theorem parts_matched (bound : List (String × α)) (code : List (Code α)) :
    parts (matched bound code) = bound.map (·.2) ++ parts code := by
  have hvalues : parts (terminatedCode (bound.map fun entry => partReference entry.2)) = bound.map (·.2) := by
    rw [parts_terminatedCode, List.flatMap_map, List.map_eq_flatMap]
    simp only [parts_partReference]
  unfold matched
  split
  · rename_i hempty
    rw [List.isEmpty_iff.1 hempty]
    rfl
  · simp [hvalues]

/-- What hands the record on holds the logger. -/
theorem parts_posted (logger : Option α) (delivery : Delivery) : parts (posted logger delivery) = logger.toList := by
  cases logger <;> simp [posted, parts_partReference]

/-- The record is rendered from the values and the arguments. -/
theorem parts_recorded (severity : Severity) (format : String) (bound : List (String × α)) (arguments : List α) :
    parts (recorded (matched bound (rendered severity format arguments))) = bound.map (·.2) ++ arguments := by
  simp [recorded, parts_matched, parts_rendered]

/-- First come the values, in the order of their locals, then the arguments, and then the logger. -/
theorem parts_outline (severity : Severity) (format : String) (bound : List (String × α)) (arguments : List α)
    (logger : Option α) (delivery : Delivery) :
    parts (outline severity format bound arguments logger delivery) = bound.map (·.2) ++ arguments ++ logger.toList := by
  simp [outline, guarded, parts_recorded, parts_posted]

/-! ## The brackets around the parts -/

theorem enclosed_partReference (part : α) : Enclosed (partReference part) :=
  (enclosed_ofTokens _).append (.hole .nil)

theorem enclosed_rendered (severity : Severity) (format : String) (arguments : List α) :
    Enclosed (rendered severity format arguments) := by
  have harguments : Enclosed (separatedCode (arguments.map partArgument)) := by
    refine flatten_intersperse_induction .nil (fun _ _ => .append) (enclosed_ofTokens _) ?_
    exact List.forall_mem_map.2 fun part _ => (enclosed_partReference part).append (enclosed_ofTokens _)
  refine (enclosed_ofTokens _).append (.group ?_ .nil)
  exact ((enclosed_ofTokens _).append (.group harguments .nil)).append (enclosed_ofTokens _)

theorem enclosed_matched (bound : List (String × α)) {code : List (Code α)} (h : Enclosed code) :
    Enclosed (matched bound code) := by
  have hvalues : Enclosed (terminatedCode (bound.map fun entry => partReference entry.2)) :=
    flatMap_append_induction .nil (fun _ _ => .append) (enclosed_ofTokens _)
      (List.forall_mem_map.2 fun entry _ => enclosed_partReference entry.2)
  unfold matched
  split
  · exact h
  · refine ((enclosed_ofTokens _).append (.group hvalues .nil)).append (.group ?_ .nil)
    exact ((enclosed_ofTokens _).append h).append (enclosed_ofTokens _)

theorem enclosed_posted (logger : Option α) (delivery : Delivery) : Enclosed (posted logger delivery) := by
  cases logger with
  | none => exact enclosed_ofTokens _
  | some logger =>
    refine (enclosed_ofTokens _).append (.group ?_ .nil)
    exact (enclosed_partReference logger).append (enclosed_ofTokens _)

/-- Every part stands alone between round brackets. -/
theorem enclosed_outline (severity : Severity) (format : String) (bound : List (String × α)) (arguments : List α)
    (logger : Option α) (delivery : Delivery) : Enclosed (outline severity format bound arguments logger delivery) := by
  have hrendering := enclosed_matched bound (enclosed_rendered severity format arguments)
  have hrecorded : Enclosed (recorded (matched bound (rendered severity format arguments))) :=
    ((enclosed_ofTokens _).append (.group hrendering .nil)).append (enclosed_ofTokens _)
  refine .group ((enclosed_ofTokens _).append (.group ?_ .nil)) .nil
  exact hrecorded.append ((enclosed_posted logger delivery).append (enclosed_ofTokens _))

end PrivateLog.Expansion
