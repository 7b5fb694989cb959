/-!
# Text

A text is the list of its characters, so every offset, length and column in this library counts
characters, and a cut never falls inside one.
-/

namespace FieldHint

/-- A text, character by character. -/
abbrev Text := List Char

namespace Text

/-- The text, unless it is empty. -/
def nonempty? (t : Text) : Option Text :=
  if t.isEmpty then none else some t

/-- The text without its longest tail of characters that satisfy `p`. -/
def dropWhileEnd (p : Char → Bool) (t : Text) : Text :=
  (t.reverse.dropWhile p).reverse

/-- The characters from offset `start` up to, not including, offset `stop`. -/
def slice (t : Text) (start stop : Nat) : Text :=
  (t.take stop).drop start

/-- What follows `mark`, if the text starts with it. -/
def after? (mark : Text) (t : Text) : Option Text :=
  if mark.isPrefixOf t then some (t.drop mark.length) else none

/-- The text before the first occurrence of `mark`, or all of it. -/
def before (mark : Text) : Text → Text
  | [] => []
  | c :: t => if mark.isPrefixOf (c :: t) then [] else c :: before mark t

/-- Put a character in front of the first of several texts. -/
def consHead (c : Char) : List Text → List Text
  | [] => [[c]]
  | t :: ts => (c :: t) :: ts

/-- The texts with a separator between each two. -/
def join (separator : Text) (ts : List Text) : Text := separator.intercalate ts

/-- A number in decimal digits. -/
def ofNat (n : Nat) : Text := Nat.toDigits 10 n

/-- The most digits that an integer is read from. -/
def maxDigits : Nat := 4300

/-- The number that decimal digits of ASCII write. -/
def toNat (digits : Text) : Nat := digits.foldl (fun n c => 10 * n + (c.toNat - 0x30)) 0

/-- A number in decimal digits, with a minus sign if it is negative. -/
def ofInt : Int → Text
  | .ofNat n => ofNat n
  | .negSucc n => '-' :: ofNat (n + 1)

end Text

end FieldHint
