import PrivateLog.Proofs.Expansion.Outline

/-!
# What is written down in the outline

Of the tokens that the outline of a logging call adds to the parts of the user, two kinds matter: the literal of the format, of
which there is one (`isLiteral_outline`), and the word that waits for the logger, which is there once if the delivery waits
(`isAwait_outline`) and never before the record is rendered (`isAwait_recorded`). Both follow from one count of the tokens of
a kind to which nothing else in the outline belongs (`Rare.outline`).
-/

namespace PrivateLog.Expansion

open Code

variable {α : Type}

/-! ## Tokens of a kind -/

/-- The tokens of a kind that are written down in some code, from left to right. -/
def selected (kind : Token → Bool) (code : List (Code α)) : List Token :=
  (written code).filter kind

/-- A kind that no punctuation belongs to, and no word but the one that waits. -/
structure Rare (kind : Token → Bool) : Prop where
  punct : ∀ symbol spacing, kind (.punct symbol spacing) = false
  ident : ∀ name, name ≠ "await" → kind (.ident name) = false

section
variable {kind : Token → Bool}

@[simp]
theorem selected_nil : selected kind ([] : List (Code α)) = [] := rfl

@[simp]
theorem selected_append (a b : List (Code α)) : selected kind (a ++ b) = selected kind a ++ selected kind b := by
  rw [selected, written_append, List.filter_append]
  rfl

theorem selected_append_eq_nil {a b : List (Code α)} (ha : selected kind a = []) (hb : selected kind b = []) :
    selected kind (a ++ b) = [] := by
  rw [selected_append, ha, hb, List.append_nil]

theorem selected_ofTokens_append_eq_nil {a b : List Token} (ha : selected kind (ofTokens a : List (Code α)) = [])
    (hb : selected kind (ofTokens b : List (Code α)) = []) : selected kind (ofTokens (a ++ b) : List (Code α)) = [] := by
  rw [ofTokens_append, selected_append_eq_nil ha hb]

@[simp]
theorem selected_group (delimiter : Delimiter) (body code : List (Code α)) :
    selected kind (.group delimiter body :: code) = selected kind body ++ selected kind code := by
  rw [selected, written_group, List.filter_append]
  rfl

@[simp]
theorem selected_hole (part : α) (code : List (Code α)) : selected kind (.hole part :: code) = selected kind code := rfl

theorem selected_fixed {token : Token} (h : kind token = false) (code : List (Code α)) :
    selected kind (.fixed token :: code) = selected kind code :=
  List.filter_cons_of_neg (by simp [h])

@[simp]
theorem selected_parentheses (row : List Token) :
    selected kind (ofTokens (parentheses row) : List (Code α)) = selected kind (ofTokens row : List (Code α)) := by
  simp [parentheses, ofTokens, ofToken]

/-! ### Rows of tokens -/

variable (h : Rare kind)
include h

theorem Rare.word {name : String} (hname : name ≠ "await") : selected kind (ofTokens (word name) : List (Code α)) = [] :=
  selected_fixed (h.ident name hname) []

theorem Rare.operator (text : String) : selected kind (ofTokens (operator text) : List (Code α)) = [] := by
  unfold Expansion.operator
  induction text.toList with
  | nil => rfl
  | cons c cs ih =>
    cases cs with
    | nil => exact selected_fixed (h.punct c .alone) []
    | cons d cs => exact (selected_fixed (h.punct c .joint) _).trans ih

/-- A path has only words that do not wait if its names are such. -/
theorem Rare.path {names : List String} (hnames : ∀ name ∈ names, name ≠ "await") :
    selected kind (ofTokens (path names) : List (Code α)) = [] := by
  refine flatten_intersperse_induction (P := fun row => selected kind (ofTokens row : List (Code α)) = []) rfl
    (fun _ _ => selected_ofTokens_append_eq_nil) (h.operator _) ?_
  exact List.forall_mem_map.2 fun name hname => h.word (hnames name hname)

/-- So does a pattern if its locals are such. -/
theorem Rare.locals {names : List String} (hnames : ∀ name ∈ names, name ≠ "await") :
    selected kind (ofTokens (terminated (names.map Expansion.word)) : List (Code α)) = [] := by
  refine flatMap_append_induction (P := fun row => selected kind (ofTokens row : List (Code α)) = []) rfl
    (fun _ _ => selected_ofTokens_append_eq_nil) (h.operator _) ?_
  exact List.forall_mem_map.2 fun name hname => h.word (hnames name hname)

theorem Rare.severity (severity : Severity) : selected kind (ofTokens (Expansion.severity severity) : List (Code α)) = [] := by
  refine h.path ?_
  cases severity <;> decide

/-! ### The outline -/

theorem Rare.partReference (part : α) : selected kind (partReference part) = [] := by
  simp [Expansion.partReference, h.operator]

theorem Rare.partArgument (part : α) : selected kind (partArgument part) = [] := by
  simp [Expansion.partArgument, h.partReference, h.operator, h.word, h.path]

/-- The rendering has the format. -/
theorem Rare.rendered (severity : Severity) (format : String) (arguments : List α) :
    selected kind (rendered severity format arguments) = selected kind (ofTokens (formatLiteral format) : List (Code α)) := by
  have harguments : selected kind (separatedCode (arguments.map Expansion.partArgument)) = [] := by
    refine flatten_intersperse_induction (P := fun code => selected kind code = []) rfl
      (fun _ _ => selected_append_eq_nil) (h.operator _) ?_
    exact List.forall_mem_map.2 fun part _ => h.partArgument part
  simp [Expansion.rendered, separated, terminated, location, harguments, h.operator, h.word, h.path, h.severity]

variable {bound : List (String × α)} (hbound : ∀ entry ∈ bound, entry.1 ≠ "await")
include hbound

/-- Taking the values adds nothing. -/
theorem Rare.matched (code : List (Code α)) : selected kind (matched bound code) = selected kind code := by
  have hvalues : selected kind (terminatedCode (bound.map fun entry => Expansion.partReference entry.2)) = [] := by
    refine flatMap_append_induction (P := fun code => selected kind code = []) rfl
      (fun _ _ => selected_append_eq_nil) (h.operator _) ?_
    exact List.forall_mem_map.2 fun entry _ => h.partReference entry.2
  have hlocals : selected kind (ofTokens (terminated ((bound.map (·.1)).map Expansion.word)) : List (Code α)) = [] :=
    h.locals (List.forall_mem_map.2 hbound)
  rw [List.map_map, Function.comp_def] at hlocals
  unfold Expansion.matched
  split
  · rfl
  · simp [hvalues, hlocals, h.operator, h.word]

/-- Neither does keeping the record. -/
theorem Rare.recorded (severity : Severity) (format : String) (arguments : List α) :
    selected kind (Expansion.recorded (Expansion.matched bound (Expansion.rendered severity format arguments))) =
      selected kind (ofTokens (formatLiteral format) : List (Code α)) := by
  simp [Expansion.recorded, h.matched hbound, h.rendered, h.operator, h.word]

omit hbound in
theorem Rare.guarded (severity : Severity) (code : List (Code α)) :
    selected kind (guarded severity code) = selected kind code := by
  have hcondition : (.ident "if" :: condition severity) = Expansion.word "if" ++ (Expansion.path ["loggable", "severity_enabled"] ++
      Expansion.operator "!" ++ parentheses (Expansion.severity severity)) := by
    rw [condition_eq]
    rfl
  simp [Expansion.guarded, hcondition, h.operator, h.word, h.path, h.severity]

omit hbound in
theorem Rare.posted (logger : Option α) (delivery : Delivery) : selected kind (posted logger delivery) = [] := by
  have hnames : (∀ name ∈ ["loggable", "hidden", "log_post" ++ suffix delivery], name ≠ "await") ∧
      ∀ name ∈ ["loggable", "hidden", "log_post_to" ++ suffix delivery], name ≠ "await" := by
    cases delivery <;> decide
  cases logger <;> simp [Expansion.posted, h.path hnames.1, h.path hnames.2, h.partReference, h.operator, h.word]

/-- In all of the outline nothing of the kind is written down but in the format and, behind it, to wait. -/
theorem Rare.outline (severity : Severity) (format : String) (arguments : List α) (logger : Option α) (delivery : Delivery) :
    selected kind (outline severity format bound arguments logger delivery) =
      selected kind (ofTokens (formatLiteral format) : List (Code α)) ++
        selected kind (ofTokens (waiting delivery) : List (Code α)) := by
  simp [Expansion.outline, h.guarded, h.recorded hbound, h.posted, h.operator]

end

/-! ### Waiting and literals -/

/-- Whether a token is the word that waits. -/
def isAwait : Token → Bool
  | .ident name => name == "await"
  | _ => false

/-- Whether a token is a literal. -/
def isLiteral : Token → Bool
  | .literal _ => true
  | _ => false

theorem rare_isAwait : Rare isAwait :=
  ⟨fun _ _ => rfl, fun _ hname => beq_false_of_ne hname⟩

theorem rare_isLiteral : Rare isLiteral :=
  ⟨fun _ _ => rfl, fun _ _ => rfl⟩

section
variable {bound : List (String × α)} (hbound : ∀ entry ∈ bound, entry.1 ≠ "await") (severity : Severity) (format : String)
  (arguments : List α)
include hbound

/-- Nothing waits before the record is rendered. -/
theorem isAwait_recorded : selected isAwait (recorded (matched bound (rendered severity format arguments))) = [] :=
  rare_isAwait.recorded hbound severity format arguments

/-- The code waits once if the delivery does, and else not at all. -/
theorem isAwait_outline (logger : Option α) (delivery : Delivery) :
    selected isAwait (outline severity format bound arguments logger delivery) =
      if delivery = .awaited then [.ident "await"] else [] := by
  rw [rare_isAwait.outline hbound]
  cases delivery <;> rfl

/-- The only literal in the code is that of the format. -/
theorem isLiteral_outline (logger : Option α) (delivery : Delivery) :
    selected isLiteral (outline severity format bound arguments logger delivery) = formatLiteral format := by
  rw [rare_isLiteral.outline hbound]
  cases delivery <;> rfl

end

end PrivateLog.Expansion
