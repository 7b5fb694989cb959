import FieldHint.Text.Basic

/-!
# Scanning a struct body

A body falls apart at line feeds and semicolons, but not inside the braces of an inline type.
Tags and comments hide semicolons and braces, and end with the line at the latest. The depth
carries over from line to line; closing braces without a partner take it below zero.
-/

namespace FieldHint.Body

/-- What the scan stands in. A slash may be the first of the two that open a comment. -/
inductive Mode
  | code
  | slash
  | tag
  | comment
  deriving DecidableEq, Repr

namespace Mode

/-- Whether braces and semicolons count. -/
def isCode : Mode → Bool
  | code | slash => true
  | _ => false

/-- The mode after a character of code. -/
def entered (c : Char) : Mode :=
  if c = '\x60' then tag else if c = '/' then slash else code

/-- The mode after a character. -/
def next : Mode → Char → Mode
  | code, c => entered c
  | slash, c => if c = '/' then comment else entered c
  | tag, c => if c = '\x60' ∨ c = '\n' then code else tag
  | comment, c => if c = '\n' then code else comment

end Mode

/-- Where the scan has got to: what it stands in, and how many braces are open. -/
structure Scan where
  mode : Mode := .code
  depth : Int := 0
  deriving DecidableEq, Repr

namespace Scan

/-- How a character changes the depth. -/
def weight (s : Scan) (c : Char) : Int :=
  if s.mode.isCode then if c = '{' then 1 else if c = '}' then -1 else 0 else 0

/-- The scan after one more character. -/
def step (s : Scan) (c : Char) : Scan := ⟨s.mode.next c, s.depth + s.weight c⟩

/-- The scan after a text. -/
def run (s : Scan) (t : Text) : Scan := t.foldl step s

/-- Whether the character ends a piece: a line feed always does where no brace is open, a
semicolon only in code. -/
def splitsAt (s : Scan) (c : Char) : Bool :=
  s.depth ≤ 0 && (c = '\n' || (c = ';' && s.mode.isCode))

/-- The text between the separators. -/
def chunks (s : Scan) : Text → List Text
  | [] => [[]]
  | c :: t =>
    if s.splitsAt c then [] :: (s.step c).chunks t else Text.consHead c ((s.step c).chunks t)

end Scan

/-- How many braces are open at the end of a text. -/
def depthAfter (t : Text) : Int := (Scan.run {} t).depth

end FieldHint.Body
