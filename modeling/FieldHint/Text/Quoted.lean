import FieldHint.Text.Hex
import FieldHint.Text.Printable

/-!
# Quoted texts

How a message shows a text: in apostrophes, or in double quotes if it holds an apostrophe and no
double quote, with everything escaped that would not be seen as it is.
-/

namespace FieldHint.Text

/-- The quote that a text is shown in. -/
def quoteFor (t : Text) : Char :=
  if '\x27' ∈ t ∧ '"' ∉ t then '"' else '\x27'

/-- One character between quotes. -/
def quoteChar (quote c : Char) : Text :=
  if c = quote ∨ c = '\\' then ['\\', c]
  else if c = '\n' then ['\\', 'n']
  else if c = '\r' then ['\\', 'r']
  else if c = '\t' then ['\\', 't']
  else if isPrintable c then [c]
  else if c.toNat < 0x100 then ['\\', 'x'] ++ hex 2 c.toNat
  else if c.toNat < 0x10000 then ['\\', 'u'] ++ hex 4 c.toNat
  else ['\\', 'U'] ++ hex 8 c.toNat

/-- The text in quotes. -/
def quoted (t : Text) : Text :=
  quoteFor t :: t.flatMap (quoteChar (quoteFor t)) ++ [quoteFor t]

end FieldHint.Text
