import PrivateLog.Expression.Type

/-!
# Items

The items that a block may hold: functions, imports, constants, types, modules, structures, enumerations, traits, their
implementations, foreign items and macros. What an item begins with settles what it is, apart from its attributes and the
visibility in front. Items in traits, in implementations and in blocks of foreign items are `associated`.
-/

namespace PrivateLog.Expression

/-- Whether a restriction of what is visible is ahead, behind `pub`: one word in parentheses, or a path behind `in`. -/
def isRestriction : List Token → Bool
  | .group .parenthesis body :: _ =>
    isWord "in" body || (isWordOf ["crate", "self", "super"] body && (body.drop 1).isEmpty)
  | _ => false

/-- Whether a function is ahead, with the words in front of it. -/
def startsFunction (tokens : List Token) : Bool :=
  isWordOf ["fn", "async", "extern"] tokens ||
    (isWordOf ["const", "unsafe"] tokens && isWordOf ["fn", "async", "unsafe", "extern"] (tokens.drop 1))

/-- Whether the input of a function is ahead that the function is a method of. -/
def isReceiver (tokens : List Token) : Bool :=
  (isWord "self" tokens && !isOperator "::" (tokens.drop 1)) || (isWord "mut" tokens && isWord "self" (tokens.drop 1)) ||
    (isOperator "&" tokens &&
      (isWord "self" (tokens.drop 1) || (isWord "mut" (tokens.drop 1) && isWord "self" (tokens.drop 2)) ||
        (isLifetime (tokens.drop 1) &&
          (isWord "self" (tokens.drop 3) || (isWord "mut" (tokens.drop 3) && isWord "self" (tokens.drop 4))))))

/-- Whether a generic parameter ends before what is ahead, or its bounds or its default begin there. -/
def endsParameterName (tokens : List Token) : Bool :=
  isOperatorOf [">", ",", "="] tokens || isColon tokens

/-- Whether the generic parameters of an implementation are ahead, rather than a type in angle brackets. -/
def startsGenerics (tokens : List Token) : Bool :=
  isOperator "<" tokens &&
    (isOperatorOf [">", "#"] (tokens.drop 1) || isWord "const" (tokens.drop 1) ||
      (isLifetime (tokens.drop 1) && endsParameterName (tokens.drop 3)) ||
      (isName (tokens.drop 1) && endsParameterName (tokens.drop 2)))

/-- Whether the path of a macro may begin with what is ahead. -/
def startsMacro (tokens : List Token) : Bool :=
  isName tokens || isWordOf ["self", "super", "crate"] tokens || isOperator "::" tokens

/-- Whether a static variable is ahead in a block of foreign items. -/
def startsForeignStatic (tokens : List Token) : Bool :=
  isWord "static" tokens || (isWordOf ["unsafe", "safe"] tokens && isWord "static" (tokens.drop 1))

open PrivateLog.Expression.Symbol in
/-- The production of an item that is associated with none, behind the visibility. -/
def declarationProduction (marked : Bool) (tokens : List Token) : Option (List Symbol) :=
  if isWord "extern" tokens then
    if isWord "crate" (tokens.drop 1) then some [word "extern", word "crate", item .crateName, operator ";"]
    else some [word "extern", type .linkage, item (.linked (!marked))]
  else if isWord "unsafe" tokens && isWord "extern" (tokens.drop 1) then
    some [word "unsafe", word "extern", type .linkage, item (.linked (!marked))]
  else if startsFunction tokens then some [item (.signature false), item .ending]
  else if isWord "use" tokens then some [word "use", item .importRoot, operator ";"]
  else if isWord "static" tokens then some [word "static", item .static]
  else if isWord "const" tokens then some [word "const", item .constant]
  else if isWord "unsafe" tokens then
    if isWord "trait" (tokens.drop 1) then some [word "unsafe", word "trait", item (.trait false)]
    else if isWord "auto" (tokens.drop 1) then some [word "unsafe", word "auto", word "trait", item (.trait false)]
    else if isWord "impl" (tokens.drop 1) then some [word "unsafe", item .implementation]
    else some [word "unsafe", word "mod", item .moduleName]
  else if isWord "mod" tokens then some [word "mod", item .moduleName]
  else if isWord "type" tokens then some [word "type", name, item .generics, item .typeBounds, item (.typeEnd .plain)]
  else if isWord "struct" tokens then some [word "struct", name, item .generics, item .structFields]
  else if isWord "enum" tokens then
    some [word "enum", name, item .generics, item .condition, group .brace (.item .variants)]
  else if isWord "union" tokens && isName (tokens.drop 1) then
    some [word "union", name, item .generics, item .condition, group .brace (.item .namedFields)]
  else if isWord "trait" tokens then some [word "trait", item (.trait true)]
  else if isWord "auto" tokens && isWord "trait" (tokens.drop 1) then
    some [word "auto", word "trait", item (.trait false)]
  else if isWord "impl" tokens then some [item .implementation]
  else if isWord "default" tokens && !isOperator "!" (tokens.drop 1) then
    if isWord "unsafe" (tokens.drop 1) then some [word "default", word "unsafe", item .implementation]
    else some [word "default", item .implementation]
  else if isWord "macro" tokens then some [word "macro", item .macroRule]
  else if !marked && startsMacro tokens then some [path .names, operator "!", item .macroName]
  else none

open PrivateLog.Expression.Symbol in
/-- The production of an associated item, behind what stands in front of it. -/
def associatedProduction (surroundings : Surroundings) (marked : Bool) (tokens : List Token) : Option (List Symbol) :=
  if surroundings = .foreign && startsForeignStatic tokens then
    if isWord "static" tokens then some [word "static", item .foreignStatic]
    else if isWord "unsafe" tokens then some [word "unsafe", word "static", item .foreignStatic]
    else some [word "safe", word "static", item .foreignStatic]
  else if startsFunction tokens ||
      (surroundings = .foreign && isWord "safe" tokens && isWordOf ["fn", "extern"] (tokens.drop 1)) then
    some [item (.signature (surroundings = .foreign)), item .ending]
  else if surroundings ≠ .foreign && isWord "const" tokens then some [word "const", item .constant]
  else if isWord "type" tokens then
    some [word "type", name, item .generics, item .typeBounds, item (.typeEnd surroundings)]
  else if !marked && startsMacro tokens then some [path .names, operator "!", item .macroTokens]
  else none

open PrivateLog.Expression.Symbol in
/-- The production of a part of an item. -/
def itemProduction (goal : ItemGoal) (tokens : List Token) : Option (List Symbol) :=
  match goal with
  | .body surroundings =>
    if isOperator "#" tokens && isOperator "!" (tokens.drop 1) then
      some [operator "#", operator "!", tag, item (.body surroundings)]
    else some [item (.items surroundings)]
  | .items surroundings =>
    if tokens.isEmpty then some [] else some [item (.item surroundings), item (.items surroundings)]
  | .item surroundings =>
    if isOperator "#" tokens then some [operator "#", tag, item (.item surroundings)]
    else some [item .visibility, item (.declaration surroundings (isWord "pub" tokens))]
  | .declaration surroundings marked =>
    match surroundings with
    | .plain => declarationProduction marked tokens
    | .trait =>
      if isWord "default" tokens then some [word "default", item (.associated .trait true)]
      else some [item (.associated .trait marked)]
    | .implementation =>
      if isWord "default" tokens && !isOperator "!" (tokens.drop 1) then
        some [word "default", item (.associated .implementation true)]
      else some [item (.associated .implementation marked)]
    | .foreign => some [item (.associated .foreign marked)]
  | .associated surroundings marked => associatedProduction surroundings marked tokens
  | .visibility =>
    if isWord "pub" tokens then
      if isRestriction (tokens.drop 1) then some [word "pub", group .parenthesis (.item .restriction)]
      else some [word "pub"]
    else some []
  | .restriction =>
    if isWord "in" tokens then some [word "in", path .names]
    else if isWord "crate" tokens then some [word "crate"]
    else if isWord "self" tokens then some [word "self"]
    else some [word "super"]
  -- functions
  | .signature safe => some (wordsAhead ["const", "async"] tokens ++ [item (.safety safe)])
  | .safety safe =>
    if isWord "unsafe" tokens then some [word "unsafe", item .callee]
    else if safe && isWord "safe" tokens then some [word "safe", item .callee]
    else some [item .callee]
  | .callee =>
    if isWord "extern" tokens then some [word "extern", type .linkage, item .header] else some [item .header]
  | .header =>
    some [word "fn", name, item .generics, group .parenthesis (.item (.inputs true)), type (.result true),
      item .condition]
  | .ending => if isOperator ";" tokens then some [operator ";"] else some [body]
  | .linked foreign =>
    if foreign && isGroup .brace tokens then some [group .brace (.item (.body .foreign))]
    else some [item .header, item .ending]
  | .inputs first => if tokens.isEmpty then some [] else some [item (.someInputs first)]
  | .someInputs first =>
    if isOperator "#" tokens then some [operator "#", tag, item (.someInputs first)]
    else if isOperator "..." tokens then some [operator "...", type .optionalComma]
    else if isReceiver tokens then if first then some [item .receiver, item .moreInputs] else none
    else if isName tokens && isOperator "<" (tokens.drop 1) then some [type (.type true), item .moreInputs]
    else some [pattern .single, operator ":", item .inputType]
  | .inputType =>
    if isOperator "..." tokens then some [operator "...", type .optionalComma]
    else some [type (.type true), item .moreInputs]
  | .moreInputs => if tokens.isEmpty then some [] else some [operator ",", item (.inputs false)]
  | .receiver =>
    if isOperator "&" tokens then some [operator "&", item .borrowed]
    else some [item .selfName, statement .ascription]
  | .borrowed => if isLifetime tokens then some [lifetime, item .selfName] else some [item .selfName]
  | .selfName => if isWord "mut" tokens then some [word "mut", word "self"] else some [word "self"]
  -- generic parameters and conditions
  | .generics =>
    if isOperator "<" tokens then some [operator "<", item .parameters, operator ">"] else some []
  | .parameters => if isOperator ">" tokens then some [] else some [item .parameter, item .moreParameters]
  | .parameter =>
    if isOperator "#" tokens then some [operator "#", tag, item .parameter]
    else if isLifetime tokens then some [lifetime, item .lifetimeBounds]
    else if isWord "const" tokens then some [word "const", name, operator ":", type (.type true), item .constantDefault]
    else if isWord "_" tokens then some [word "_"]
    else some [name, item .typeBounds, item .definition]
  | .moreParameters => if isOperator ">" tokens then some [] else some [operator ",", item .parameters]
  | .lifetimeBounds => if isOperator ":" tokens then some [operator ":", item .lifetimeList] else some []
  | .lifetimeList =>
    if isLifetime tokens then some [lifetime, item .moreLifetimeList]
    else if isOperator ":" tokens then none
    else some []
  | .moreLifetimeList => if isOperator "+" tokens then some [operator "+", item .lifetimeList] else some []
  | .constantDefault => if isOperator "=" tokens then some [operator "=", path .argumentValue] else some []
  | .typeBounds => if isOperator ":" tokens then some [operator ":", type (.boundList false)] else some []
  | .definition => if isOperator "=" tokens then some [operator "=", type (.type true)] else some []
  | .condition => if isWord "where" tokens then some [word "where", item .predicates] else some []
  | .predicates =>
    if isGroup .brace tokens || isOperatorOf [";", "="] tokens then some []
    else some [item .predicate, item .morePredicates]
  | .predicate =>
    if isLifetime tokens && isOperator ":" (tokens.drop 2) then some [lifetime, operator ":", item .lifetimeList]
    else if isWord "for" tokens then
      some [word "for", operator "<", type .lifetimes, operator ">", item .bounded]
    else some [item .bounded]
  | .bounded => some [type (.type true), operator ":", type (.boundList false)]
  | .morePredicates => if isOperator "," tokens then some [operator ",", item .predicates] else some []
  -- imports
  | .importRoot =>
    if isOperator "::" tokens then some [operator "::", item (.importTree false)] else some [item (.importTree true)]
  | .importTree root =>
    if isGroup .brace tokens then some [group .brace (.item (.importTrees root))]
    else if isOperator "*" tokens then some [operator "*"]
    else
      match tokens with
      | .ident text :: _ =>
        if ["self", "super", "crate", "try"].contains text then some [word text, item .importRest]
        else some [name, item .importRest]
      | _ => none
  | .importRest =>
    if isOperator "::" tokens then some [operator "::", item (.importTree false)]
    else if isWord "as" tokens then some [word "as", item .rename]
    else some []
  | .importTrees root =>
    if tokens.isEmpty then some []
    else if root && isOperator "::" tokens then
      some [operator "::", item (.importTree false), item (.moreImportTrees root)]
    else some [item (.importTree root), item (.moreImportTrees root)]
  | .moreImportTrees root => if tokens.isEmpty then some [] else some [operator ",", item (.importTrees root)]
  | .crateName =>
    if isWord "self" tokens then some [word "self", item .crateRename] else some [name, item .crateRename]
  | .crateRename => if isWord "as" tokens then some [word "as", item .rename] else some []
  | .rename => if isWord "_" tokens then some [word "_"] else some [name]
  -- values, types and modules
  | .static =>
    if isWord "mut" tokens then some [word "mut", name, item .staticType] else some [name, item .staticType]
  | .staticType =>
    if isOperator "=" tokens then some [operator "=", expression, operator ";"]
    else some [operator ":", type (.type true), item .staticValue]
  | .staticValue =>
    if isOperator ";" tokens then some [operator ";"] else some [operator "=", expression, operator ";"]
  | .foreignStatic =>
    if isWord "mut" tokens then some [word "mut", name, operator ":", type (.type true), item .value, operator ";"]
    else some [name, operator ":", type (.type true), item .value, operator ";"]
  | .constant =>
    if isWord "_" tokens then some [word "_", item .generics, item .constantType]
    else some [name, item .generics, item .constantType]
  | .constantType => some [operator ":", type (.type true), item .value, item .condition, operator ";"]
  | .value => if isOperator "=" tokens then some [operator "=", expression] else some []
  | .typeEnd surroundings =>
    if surroundings = .plain || (surroundings = .foreign && isWord "where" tokens) then
      some [item .condition, item .definition, operator ";"]
    else some [item .definition, item .condition, operator ";"]
  | .moduleName =>
    if isWord "try" tokens then some [word "try", item .moduleEnd] else some [name, item .moduleEnd]
  | .moduleEnd => if isOperator ";" tokens then some [operator ";"] else some [group .brace (.item (.body .plain))]
  -- structures, enumerations and traits
  | .structFields =>
    if isWord "where" tokens then some [item .condition, item .structEnd]
    else if isGroup .parenthesis tokens then
      some [group .parenthesis (.item .unnamedFields), item .condition, operator ";"]
    else some [item .structEnd]
  | .structEnd => if isOperator ";" tokens then some [operator ";"] else some [group .brace (.item .namedFields)]
  | .namedFields => if tokens.isEmpty then some [] else some [item .namedField, item .moreNamedFields]
  | .namedField =>
    if isOperator "#" tokens then some [operator "#", tag, item .namedField]
    else some [item .visibility, item .fieldName]
  | .fieldName =>
    if isWord "_" tokens then some [word "_", operator ":", item .fieldType]
    else some [name, operator ":", type (.type true)]
  | .fieldType =>
    if isWord "struct" tokens then some [word "struct", group .brace (.item .namedFields)]
    else if isWord "union" tokens && isGroup .brace (tokens.drop 1) then
      some [word "union", group .brace (.item .namedFields)]
    else some [type (.type true)]
  | .moreNamedFields => if tokens.isEmpty then some [] else some [operator ",", item .namedFields]
  | .unnamedFields => if tokens.isEmpty then some [] else some [item .unnamedField, item .moreUnnamedFields]
  | .unnamedField =>
    if isOperator "#" tokens then some [operator "#", tag, item .unnamedField]
    else if isWord "pub" tokens then
      if isRestriction (tokens.drop 1) then
        some [word "pub", group .parenthesis (.item .restriction), type (.type true)]
      else some [word "pub", type (.type true)]
    else some [type (.type true)]
  | .moreUnnamedFields => if tokens.isEmpty then some [] else some [operator ",", item .unnamedFields]
  | .variants => if tokens.isEmpty then some [] else some [item .variant, item .moreVariants]
  | .variant =>
    if isOperator "#" tokens then some [operator "#", tag, item .variant]
    else some [item .visibility, name, item .variantFields, item .value]
  | .variantFields =>
    if isGroup .brace tokens then some [group .brace (.item .namedFields)]
    else if isGroup .parenthesis tokens then some [group .parenthesis (.item .unnamedFields)]
    else some []
  | .moreVariants => if tokens.isEmpty then some [] else some [operator ",", item .variants]
  | .trait aliased => some [name, item .generics, item (.traitEnd aliased)]
  | .traitEnd aliased =>
    if aliased && isOperator "=" tokens then
      some [operator "=", type (.boundList true), item .condition, operator ";"]
    else some [item .typeBounds, item .condition, group .brace (.item (.body .trait))]
  | .implementation =>
    if startsGenerics (tokens.drop 1) then
      some [word "impl", operator "<", item .parameters, operator ">", item .implementationTarget]
    else some [word "impl", item .implementationTarget]
  | .implementationTarget =>
    if isWord "const" tokens then some [word "const", item .implementationType]
    else if isOperator "?" tokens && isWord "const" (tokens.drop 1) then
      some [operator "?", word "const", item .implementationType]
    else some [item .implementationType]
  | .implementationType =>
    if isOperator "!" tokens && !isGroup .brace (tokens.drop 1) then
      some [operator "!", type (.type true), item .implementationFor]
    else some [type (.type true), item .implementationFor]
  | .implementationFor =>
    if isWord "for" tokens then some [word "for", type (.type true), item .implementationBody]
    else some [item .implementationBody]
  | .implementationBody => some [item .condition, group .brace (.item (.body .implementation))]
  -- macros
  | .macroRule => some [name, item .macroBody]
  | .macroBody =>
    if isGroup .parenthesis tokens then if isGroup .brace (tokens.drop 1) then some [tree, tree] else none
    else if isGroup .brace tokens then some [tree]
    else none
  | .macroName =>
    if isWord "try" tokens then some [word "try", item .macroTokens]
    else if isName tokens then some [name, item .macroTokens]
    else some [item .macroTokens]
  | .macroTokens => if isGroup .brace tokens then some [tree] else some [tree, operator ";"]

end PrivateLog.Expression
