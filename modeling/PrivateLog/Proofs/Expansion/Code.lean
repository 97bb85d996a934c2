import PrivateLog.Token.Basic
import Mathlib.Data.List.Flatten

/-!
# Code around the parts of a user

Code is made of tokens that are written down and of parts that someone else supplies. `Code` keeps the two apart: nothing is
known of a part but its place. `fillAll` puts tokens into these places; `parts` and `written` list the parts and the tokens
written down, both from left to right. In code that is `Enclosed` a part never touches a token: it stands alone between round
brackets.
-/

namespace PrivateLog

/-- A piece of code: a token that is written down, pieces between brackets, or the place of a part. -/
inductive Code (α : Type) where
  | fixed (token : Token)
  | group (delimiter : Delimiter) (body : List (Code α))
  | hole (part : α)

namespace Code

variable {α : Type}

mutual

/-- The tokens of a piece, with those of each part put into its place. -/
def fill (tokens : α → List Token) : Code α → List Token
  | .fixed token => [token]
  | .group delimiter body => [.group delimiter (fillAll tokens body)]
  | .hole part => tokens part

/-- The tokens of some pieces, one behind another. -/
def fillAll (tokens : α → List Token) : List (Code α) → List Token
  | [] => []
  | piece :: code => fill tokens piece ++ fillAll tokens code

end

mutual

/-- The tokens and parts in a piece, from left to right, without the brackets around them. -/
def leaves : Code α → List (Token ⊕ α)
  | .fixed token => [.inl token]
  | .group _ body => leavesAll body
  | .hole part => [.inr part]

/-- The tokens and parts in some pieces. -/
def leavesAll : List (Code α) → List (Token ⊕ α)
  | [] => []
  | piece :: code => leaves piece ++ leavesAll code

end

mutual

/-- A token as a piece of code; what is between brackets is code in turn. -/
def ofToken : Token → Code α
  | .group delimiter body => .group delimiter (ofTokens body)
  | token => .fixed token

/-- Tokens as pieces of code. -/
def ofTokens : List Token → List (Code α)
  | [] => []
  | token :: tokens => ofToken token :: ofTokens tokens

end

/-- The parts in some code, from left to right. -/
def parts (code : List (Code α)) : List α :=
  (leavesAll code).filterMap Sum.getRight?

/-- The tokens that are written down in some code, from left to right. -/
def written (code : List (Code α)) : List Token :=
  (leavesAll code).filterMap Sum.getLeft?

/-- Every part stands alone between round brackets. -/
inductive Enclosed : List (Code α) → Prop where
  | nil : Enclosed []
  | fixed {token : Token} {code : List (Code α)} : Enclosed code → Enclosed (.fixed token :: code)
  | group {delimiter : Delimiter} {body code : List (Code α)} :
      Enclosed body → Enclosed code → Enclosed (.group delimiter body :: code)
  | hole {part : α} {code : List (Code α)} : Enclosed code → Enclosed (.group .parenthesis [.hole part] :: code)

/-! ## Pieces one behind another -/

@[simp]
theorem fillAll_append (tokens : α → List Token) (a b : List (Code α)) :
    fillAll tokens (a ++ b) = fillAll tokens a ++ fillAll tokens b := by
  induction a with
  | nil => rfl
  | cons piece a ih => rw [List.cons_append, fillAll, fillAll, ih, List.append_assoc]

theorem leavesAll_append (a b : List (Code α)) : leavesAll (a ++ b) = leavesAll a ++ leavesAll b := by
  induction a with
  | nil => rfl
  | cons piece a ih => rw [List.cons_append, leavesAll, leavesAll, ih, List.append_assoc]

@[simp]
theorem parts_append (a b : List (Code α)) : parts (a ++ b) = parts a ++ parts b := by
  rw [parts, leavesAll_append, List.filterMap_append]
  rfl

theorem written_append (a b : List (Code α)) : written (a ++ b) = written a ++ written b := by
  rw [written, leavesAll_append, List.filterMap_append]
  rfl

theorem Enclosed.append {a b : List (Code α)} (ha : Enclosed a) (hb : Enclosed b) : Enclosed (a ++ b) := by
  induction ha with
  | nil => exact hb
  | fixed _ ih => exact .fixed ih
  | group hbody _ _ ih => exact .group hbody ih
  | hole _ ih => exact .hole ih

/-! ## The first piece -/

@[simp]
theorem fillAll_nil (tokens : α → List Token) : fillAll tokens [] = [] := rfl

@[simp]
theorem fillAll_group (tokens : α → List Token) (delimiter : Delimiter) (body code : List (Code α)) :
    fillAll tokens (.group delimiter body :: code) = .group delimiter (fillAll tokens body) :: fillAll tokens code := by
  rw [fillAll, fill, List.singleton_append]

@[simp]
theorem fillAll_hole (tokens : α → List Token) (part : α) (code : List (Code α)) :
    fillAll tokens (.hole part :: code) = tokens part ++ fillAll tokens code := by
  rw [fillAll, fill]

@[simp]
theorem parts_nil : parts ([] : List (Code α)) = [] := rfl

@[simp]
theorem parts_group (delimiter : Delimiter) (body code : List (Code α)) :
    parts (.group delimiter body :: code) = parts body ++ parts code := by
  rw [parts, leavesAll, leaves, List.filterMap_append]
  rfl

@[simp]
theorem parts_hole (part : α) (code : List (Code α)) : parts (.hole part :: code) = part :: parts code := rfl

theorem written_group (delimiter : Delimiter) (body code : List (Code α)) :
    written (.group delimiter body :: code) = written body ++ written code := by
  rw [written, leavesAll, leaves, List.filterMap_append]
  rfl

/-! ## Tokens as code -/

mutual

/-- A token as code is filled to the token. -/
theorem fill_ofToken (tokens : α → List Token) (token : Token) : fill tokens (ofToken token) = [token] := by
  cases token with
  | group delimiter body => rw [ofToken, fill, fillAll_ofTokens]
  | ident name => rfl
  | punct symbol spacing => rfl
  | literal text => rfl

/-- Tokens as code are filled to the tokens. -/
@[simp]
theorem fillAll_ofTokens (tokens : α → List Token) (row : List Token) : fillAll tokens (ofTokens row) = row := by
  cases row with
  | nil => rfl
  | cons token row => rw [ofTokens, fillAll, fill_ofToken, fillAll_ofTokens, List.singleton_append]

end

@[simp]
theorem ofTokens_nil : (ofTokens [] : List (Code α)) = [] := rfl

@[simp]
theorem ofTokens_append (a b : List Token) : (ofTokens (a ++ b) : List (Code α)) = ofTokens a ++ ofTokens b := by
  induction a with
  | nil => rfl
  | cons token a ih => rw [List.cons_append, ofTokens, ofTokens, ih, List.cons_append]

mutual

/-- A token as code holds no part. -/
theorem right_leaves_ofToken (token : Token) : (leaves (ofToken token : Code α)).filterMap Sum.getRight? = [] := by
  cases token with
  | group delimiter body => rw [ofToken, leaves, right_leavesAll_ofTokens]
  | ident name => rfl
  | punct symbol spacing => rfl
  | literal text => rfl

/-- Nor do tokens as code. -/
theorem right_leavesAll_ofTokens (row : List Token) :
    (leavesAll (ofTokens row : List (Code α))).filterMap Sum.getRight? = [] := by
  cases row with
  | nil => rfl
  | cons token row =>
    rw [ofTokens, leavesAll, List.filterMap_append, right_leaves_ofToken, right_leavesAll_ofTokens, List.append_nil]

end

@[simp]
theorem parts_ofTokens (row : List Token) : parts (ofTokens row : List (Code α)) = [] :=
  right_leavesAll_ofTokens row

mutual

/-- A token as code is enclosed. -/
theorem enclosed_ofToken (token : Token) : Enclosed [(ofToken token : Code α)] := by
  cases token with
  | group delimiter body => exact .group (enclosed_ofTokens body) .nil
  | ident name => exact .fixed .nil
  | punct symbol spacing => exact .fixed .nil
  | literal text => exact .fixed .nil

/-- So are tokens as code. -/
theorem enclosed_ofTokens (row : List Token) : Enclosed (ofTokens row : List (Code α)) := by
  cases row with
  | nil => exact .nil
  | cons token row => exact (enclosed_ofToken token).append (enclosed_ofTokens row)

end

end Code

end PrivateLog
