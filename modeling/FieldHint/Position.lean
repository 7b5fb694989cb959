import FieldHint.Text.Basic

/-!
# Positions

A place in a text is an offset or a pair of a line and a character on it, all counted from zero.
Only the line feed ends a line here. Out-of-range places are moved to the nearest one inside.
-/

namespace FieldHint

/-- A line and a character on it. -/
structure Position where
  line : Nat
  character : Nat
  deriving DecidableEq, Repr

namespace Position

/-- The position nearest to a pair of integers: negative ones count as zero. -/
def clamped (line character : Int) : Position := ⟨line.toNat, character.toNat⟩

/-- The offset of a line and a character. Past the last line is the end of the text, past the end
of a line is that end. -/
def offsetIn : Text → (line character : Nat) → Nat
  | [], _, _ => 0
  | c :: t, 0, k =>
    if c = '\n' then 0
    else match k with
      | 0 => 0
      | k + 1 => offsetIn t 0 k + 1
  | c :: t, n + 1, k => offsetIn t (if c = '\n' then n else n + 1) k + 1

/-- The offset of the position in a text. -/
def toOffset (text : Text) (p : Position) : Nat := offsetIn text p.line p.character

/-- The position at the end of a text. -/
def atEnd (text : Text) : Position :=
  ⟨text.count '\n', (text.reverse.takeWhile (· ≠ '\n')).length⟩

/-- The position of an offset, moved into the text first. -/
def ofOffset (text : Text) (offset : Int) : Position := atEnd (text.take offset.toNat)

end Position

end FieldHint
