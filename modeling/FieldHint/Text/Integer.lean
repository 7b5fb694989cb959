import FieldHint.Text.Blank
import FieldHint.Text.Decimal

/-!
# Integers as people write them

Blanks around the number, a sign, digits of any script, and single underscores between digits.
-/

namespace FieldHint.Text

/-- A character of a number in ASCII: blanks outside ASCII become spaces, digits of any script
the ten of ASCII. -/
def asciiNumeral? (c : Char) : Option Char :=
  if c.toNat < 0x80 then some c
  else if isBlank c then some ' '
  else (digitValue? c).map fun n => Char.ofNat (0x30 + n)

/-- A blank of ASCII that may stand around a number. The four separators may not. -/
def isNumeralBlank (c : Char) : Bool := c = ' ' || (0x09 ≤ c.toNat && c.toNat ≤ 0x0D)

/-- The digits of a number without the underscores between them. -/
def numeralDigits? : Text → Option Text
  | [] => none
  | [c] => if c.isDigit then some [c] else none
  | c :: '_' :: t => if c.isDigit then (numeralDigits? t).map (c :: ·) else none
  | c :: t => if c.isDigit then (numeralDigits? t).map (c :: ·) else none

/-- The sign in front of a number, and what follows it. -/
def signed (t : Text) : Int × Text :=
  match t with
  | '-' :: t => (-1, t)
  | '+' :: t => (1, t)
  | t => (1, t)

/-- The integer that a text writes. -/
def toInt? (t : Text) : Option Int := do
  let t ← t.mapM asciiNumeral?
  let (sign, t) := signed (dropWhileEnd isNumeralBlank (t.dropWhile isNumeralBlank))
  let digits ← numeralDigits? t
  if maxDigits < digits.length then none
  else return sign * toNat digits

end FieldHint.Text
