import PrivateLog.Token.Basic

/-!
# Symbols of the expression grammar

The grammar of expressions is predictive: what a goal stands for is settled by the tokens ahead and by the form of what
was read last. A production is a list of symbols. A symbol is a terminal, which takes tokens; a goal, which is replaced
by its production; a group, whose tokens have to fulfil a goal of their own; or a remark on the form of what has been
read.
-/

namespace PrivateLog.Expression

/-- What is known about the expression read last, as far as the grammar asks for it: paths without arguments may name a
macro, comparisons do not chain, ranges end an operation, and blocks and macros in braces end a statement. -/
inductive Form where
  | plain
  | bare
  | comparison
  | range
  | block
  | bracedMacro
  deriving DecidableEq, Repr

/-- How strongly an operator binds, weakest first. -/
inductive Precedence where
  | lowest
  | assign
  | range
  | or
  | and
  | binding
  | compare
  | bitOr
  | bitXor
  | bitAnd
  | shift
  | sum
  | product
  | cast
  deriving DecidableEq, Repr

/-- The place of a precedence in the order. -/
def Precedence.rank : Precedence → Nat
  | .lowest => 0
  | .assign => 1
  | .range => 2
  | .or => 3
  | .and => 4
  | .binding => 5
  | .compare => 6
  | .bitOr => 7
  | .bitXor => 8
  | .bitAnd => 9
  | .shift => 10
  | .sum => 11
  | .product => 12
  | .cast => 13

/-- Where a path stands: among values its arguments need a `::` in front, among types they do not. -/
inductive PathStyle where
  | value
  | type
  deriving DecidableEq, Repr

/-- Parts of a path. The path of a macro or an attribute consists of `names` alone. -/
inductive PathGoal where
  | names
  | name
  | moreNames
  | path (style : PathStyle)
  | qualifier
  | segments (style : PathStyle)
  | moreSegments (style : PathStyle)
  | segment (style : PathStyle)
  | arguments (style : PathStyle)
  | argumentList
  | moreArguments
  | argument
  | argumentValue
  | equated
  deriving DecidableEq, Repr

/-- Where a bound stands: in the type of an object, behind a parameter or another name that is bounded, or in a type known by
its bounds alone. Constant traits are bounds of the last two, and captured parameters of the last. -/
inductive BoundStyle where
  | object
  | parameter
  | hidden
  deriving DecidableEq, Repr

/-- Parts of a type; `plus` says whether bounds may be joined by `+`, `first` whether a parameter is the first one, and `aliased`
whether bounds stand for a trait. -/
inductive TypeGoal where
  | type (plus : Bool)
  | bindable (plus : Bool)
  | named (plus : Bool)
  | list
  | moreList
  | parenthesized
  | element
  | length
  | lifetimes
  | lifetimeParameter
  | moreLifetimes
  | bounds (style : BoundStyle) (plus : Bool)
  | moreBounds (style : BoundStyle) (plus : Bool)
  | anotherBound (style : BoundStyle) (plus : Bool)
  | boundList (aliased : Bool)
  | moreBoundList (aliased : Bool)
  | single (style : BoundStyle)
  | trait (style : BoundStyle)
  | constantTrait (style : BoundStyle)
  | constant
  | signedTrait
  | optionalTrait
  | captures
  | capture
  | moreCaptures
  | function
  | linked
  | linkage
  | parameters (first : Bool)
  | someParameters (first : Bool)
  | parameter (first : Bool)
  | moreParameters
  | optionalComma
  | result (plus : Bool)
  deriving DecidableEq, Repr

/-- Parts of a pattern. -/
inductive PatternGoal where
  | pattern
  | alternatives
  | single
  | named
  | binding
  | reference
  | afterPath
  | afterBound
  | bound
  | optionalBound
  | rest
  | subpattern
  | list
  | moreList
  | slice
  | moreSlice
  | element
  | afterElement
  | fields
  | someFields
  | field
  | fieldPattern
  | moreFields
  deriving DecidableEq, Repr

/-- Parts of a block and of what stands in one. A `body` may begin with attributes of its own; `braced` says whether braces stand
in front of the last `else` of a `let`, which is part of its expression then. -/
inductive StatementGoal where
  | body
  | statements
  | statement
  | statementEnd
  | optionalSemicolon
  | ascription
  | initializer
  | diverging (braced : Bool)
  | early
  | afterEarly
  | matched
  | arms
  | arm
  | armGuard
  | armEnd
  | tag
  | tagValue
  deriving DecidableEq, Repr

/-- Parts of an expression; `struct` says whether a brace behind a path begins the fields of a structure. -/
inductive ValueGoal where
  | expression (struct : Bool)
  | operand (struct : Bool)
  | operators (floor : Precedence) (struct : Bool)
  | climb (floor : Precedence) (struct : Bool)
  | rangeEnd (struct : Bool)
  | afterCast
  | atom (struct : Bool)
  | labelled
  | trailers
  | member (path : Bool)
  | afterMember
  | afterPath (struct : Bool)
  | list
  | moreList
  | array
  | afterElement
  | fields
  | field
  | fieldValue
  | moreFields
  | rest
  | conditional
  | otherwise
  | breakValue (struct : Bool)
  | optionalValue
  | optionalLifetime
  | closure (struct : Bool)
  | closureInputs (struct : Bool)
  | builtin
  | inputs
  | input
  | moreInputs
  | closureBody (struct : Bool)
  deriving DecidableEq, Repr

/-- Where an item stands: in a module or a block, in a trait, in its implementation, or in a block of foreign items. -/
inductive Surroundings where
  | plain
  | trait
  | implementation
  | foreign
  deriving DecidableEq, Repr

/-- Parts of an item; `marked` says whether something stands in front of it that no macro call has, such as `pub`, `foreign`
whether a block of foreign items may follow, `safe` whether a function may be called safe, `first` whether an input is the first
one, `root` whether an import may begin at the root, and `aliased` whether a trait may be an alias. -/
inductive ItemGoal where
  | body (surroundings : Surroundings)
  | items (surroundings : Surroundings)
  | item (surroundings : Surroundings)
  | declaration (surroundings : Surroundings) (marked : Bool)
  | associated (surroundings : Surroundings) (marked : Bool)
  | visibility
  | restriction
  -- functions
  | signature (safe : Bool)
  | safety (safe : Bool)
  | callee
  | header
  | ending
  | linked (foreign : Bool)
  | inputs (first : Bool)
  | someInputs (first : Bool)
  | inputType
  | moreInputs
  | receiver
  | borrowed
  | selfName
  -- generic parameters and conditions
  | generics
  | parameters
  | parameter
  | moreParameters
  | lifetimeBounds
  | lifetimeList
  | moreLifetimeList
  | constantDefault
  | typeBounds
  | definition
  | condition
  | predicates
  | predicate
  | bounded
  | morePredicates
  -- imports
  | importRoot
  | importTree (root : Bool)
  | importRest
  | importTrees (root : Bool)
  | moreImportTrees (root : Bool)
  | crateName
  | crateRename
  | rename
  -- values, types and modules
  | static
  | staticType
  | staticValue
  | foreignStatic
  | constant
  | constantType
  | value
  | typeEnd (surroundings : Surroundings)
  | moduleName
  | moduleEnd
  -- structures, enumerations and traits
  | structFields
  | structEnd
  | namedFields
  | namedField
  | fieldName
  | fieldType
  | moreNamedFields
  | unnamedFields
  | unnamedField
  | moreUnnamedFields
  | variants
  | variant
  | variantFields
  | moreVariants
  | trait (aliased : Bool)
  | traitEnd (aliased : Bool)
  | implementation
  | implementationTarget
  | implementationType
  | implementationFor
  | implementationBody
  -- macros
  | macroRule
  | macroBody
  | macroName
  | macroTokens
  deriving DecidableEq, Repr

/-- A goal of the grammar. -/
inductive Goal where
  | path (goal : PathGoal)
  | type (goal : TypeGoal)
  | pattern (goal : PatternGoal)
  | statement (goal : StatementGoal)
  | value (goal : ValueGoal)
  | item (goal : ItemGoal)
  deriving DecidableEq, Repr

/-- A symbol of a production. A `word` is one certain identifier and a `name` one that is not reserved; an `operator` is
written with its characters joined; `position` is the number of a tuple field, or several behind one another; `tree` is
any group, left as it is. -/
inductive Symbol where
  | word (text : String)
  | name
  | operator (text : String)
  | literal
  | lifetime
  | position
  | tree
  | group (delimiter : Delimiter) (goal : Goal)
  | goal (goal : Goal)
  | form (form : Form)
  deriving DecidableEq, Repr

namespace Symbol

/-- A part of a path. -/
abbrev path (goal : PathGoal) : Symbol := .goal (.path goal)

/-- A part of a type. -/
abbrev type (goal : TypeGoal) : Symbol := .goal (.type goal)

/-- A part of a pattern. -/
abbrev pattern (goal : PatternGoal) : Symbol := .goal (.pattern goal)

/-- A part of a block. -/
abbrev statement (goal : StatementGoal) : Symbol := .goal (.statement goal)

/-- A part of an expression. -/
abbrev value (goal : ValueGoal) : Symbol := .goal (.value goal)

/-- A part of an item. -/
abbrev item (goal : ItemGoal) : Symbol := .goal (.item goal)

/-- An expression that may hold structures. -/
abbrev expression : Symbol := value (.expression true)

/-- A block in its braces. -/
abbrev block : Symbol := .group .brace (.statement .statements)

/-- A block in its braces that may begin with attributes. -/
abbrev body : Symbol := .group .brace (.statement .body)

/-- A tag in its brackets. -/
abbrev tag : Symbol := .group .bracket (.statement .tag)

end Symbol

end PrivateLog.Expression
