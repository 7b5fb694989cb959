import FieldHint.Text.Basic

/-!
# Lines

Two readings of a text as lines. `lines` breaks at every line break of Unicode and yields no
empty last line; `lineStarts` knows the line feed alone and gives the rest of the text at the
start of each line.
-/

namespace FieldHint.Text

/-- Whether the character ends a line in the wide sense. -/
def isBreak (c : Char) : Bool :=
  (0x0A ≤ c.toNat && c.toNat ≤ 0x0D) || (0x1C ≤ c.toNat && c.toNat ≤ 0x1E) ||
    c.toNat = 0x85 || c.toNat = 0x2028 || c.toNat = 0x2029

/-- The lines of a text without their breaks; carriage return and line feed are one break. -/
def lines : Text → List Text
  | [] => []
  | '\r' :: '\n' :: t => [] :: lines t
  | c :: t => if isBreak c then [] :: lines t else consHead c (lines t)

/-- The starts of the lines after the first, the text itself standing at offset `n`. -/
def laterLineStarts (n : Nat) : Text → List (Nat × Text)
  | [] => []
  | c :: t =>
    if c = '\n' then (n + 1, t) :: laterLineStarts (n + 1) t else laterLineStarts (n + 1) t

/-- Every line start: its offset and the text from there on. -/
def lineStarts (t : Text) : List (Nat × Text) := (0, t) :: laterLineStarts 0 t

/-- The text up to its first line feed. -/
def firstLine (t : Text) : Text := t.takeWhile (· ≠ '\n')

end FieldHint.Text
