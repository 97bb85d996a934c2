import PrivateLog.Format.Basic

/-!
# Rendering

A format string is rendered with one argument for each marker, in order. The format is checked completely and the
arguments are counted before anything is written, so an error leaves what was written before as it is.
-/

namespace PrivateLog.Format

variable {α : Type} [Loggable α]

/-- The number of markers among some pieces. -/
def markerCount (pieces : List Piece) : Nat :=
  pieces.countP fun
    | .literal _ => false
    | .value _ => true

/-- The writes of some pieces, each marker taking the next argument. -/
def writes (reveal : Bool) : List Piece → List α → List String
  | [], _ => []
  | .literal text :: pieces, arguments => text :: writes reveal pieces arguments
  | .value policy :: pieces, argument :: arguments =>
    Loggable.writes argument policy reveal ++ writes reveal pieces arguments
  | .value _ :: pieces, [] => writes reveal pieces []

/-- The writes of a format with its arguments. -/
def render (format : String) (arguments : List α) (reveal : Bool) : Except Error (List String) := do
  let pieces ← parse format
  if markerCount pieces = arguments.length then return writes reveal pieces arguments
  else throw (.argumentCount (markerCount pieces) arguments.length)

/-- A text with the rendering behind it. On an error the text stays as it is, and the error is returned with it. -/
def renderOnto (text format : String) (arguments : List α) (reveal : Bool) : String × Option Error :=
  match render format arguments reveal with
  | .ok writes => (text ++ String.join writes, none)
  | .error error => (text, some error)

/-- The rendering as a text. -/
def renderText (format : String) (arguments : List α) (reveal : Bool) : Except Error String :=
  String.join <$> render format arguments reveal

end PrivateLog.Format
