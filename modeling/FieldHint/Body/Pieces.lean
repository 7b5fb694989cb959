import FieldHint.Body.Scan
import FieldHint.Comment
import FieldHint.Text.Blank
import FieldHint.Text.Lines

/-!
# The pieces of a struct body

What stands between the separators of a body, tidied up: a piece of several lines is folded onto
one, blanks around a piece are dropped, and so are empty pieces.
-/

namespace FieldHint.Body

/-- The lines of a folded piece: each is stripped, and all but the last lose their comments. -/
def foldedLines : List Text → List Text
  | [] => []
  | [last] => [Text.strip last]
  | line :: rest => Text.strip (Comment.cut line) :: foldedLines rest

/-- What is put between two lines that are folded together: behind an opening brace and before a
closing one a space, elsewhere a semicolon. -/
def seam (above below : Text) : Text :=
  if above.getLast? = some '{' ∨ below.head? = some '}' then [' '] else [';', ' ']

/-- Several lines as one. -/
def joinLines : List Text → Text
  | [] => []
  | [line] => line
  | above :: below :: rest => above ++ seam above below ++ joinLines (below :: rest)

/-- A piece of several lines as one line. -/
def fold (piece : Text) : Text :=
  joinLines ((foldedLines (Text.lines piece)).filter fun line => !line.isEmpty)

/-- A piece on one line without blanks around it. -/
def tidy (piece : Text) : Text :=
  if '\n' ∈ Text.strip piece then fold piece else Text.strip piece

/-- The pieces of a struct body, each on one line and none empty. -/
def pieces (body : Text) : List Text :=
  ((Scan.chunks {} body).map tidy).filter fun piece => !piece.isEmpty

end FieldHint.Body
