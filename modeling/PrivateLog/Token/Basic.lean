/-!
# Tokens

The pieces source text is made of: identifiers, punctuation characters, literals, and groups of tokens between brackets.
A punctuation character remembers whether another one followed it without a gap, which is what makes several of them one
operator.
-/

namespace PrivateLog

/-- The brackets around a group. -/
inductive Delimiter where
  | parenthesis
  | bracket
  | brace
  deriving DecidableEq, Repr

/-- Whether a punctuation character is joined to one that follows without a gap. -/
inductive Spacing where
  | alone
  | joint
  deriving DecidableEq, Repr

/-- A piece of source text: identifiers and literals are kept as they are written. -/
inductive Token where
  | ident (name : String)
  | punct (symbol : Char) (spacing : Spacing)
  | literal (text : String)
  | group (delimiter : Delimiter) (body : List Token)
  deriving Repr, Inhabited

namespace Token

mutual

/-- The number of tokens in a token, brackets counted as one. -/
def size : Token → Nat
  | .group _ body => 1 + sizeAll body
  | _ => 1

/-- The number of tokens in a list, those inside brackets included. -/
def sizeAll : List Token → Nat
  | [] => 0
  | token :: tokens => size token + sizeAll tokens

end

/-- No token is without size. -/
theorem size_pos (token : Token) : 0 < token.size := by
  cases token with
  | group _ body =>
    rw [size]
    omega
  | _ => simp [size]

/-- The size of a list is the sum over its parts. -/
theorem sizeAll_append (a b : List Token) : sizeAll (a ++ b) = sizeAll a + sizeAll b := by
  induction a with
  | nil => simp [sizeAll]
  | cons token a ih => simp [sizeAll, ih, Nat.add_assoc]

end Token

/-- A half-open range of byte offsets into a source text. -/
structure Span where
  start : Nat
  stop : Nat
  deriving DecidableEq, Repr

/-- Something found in a source text, with the place where it stands. -/
structure Located (α : Type) where
  value : α
  span : Span
  deriving Repr

end PrivateLog
