import FieldHint.Text.Basic
import FieldHint.Text.Ranges

/-!
# Blanks

A blank is a character of white space in any script, with the four ASCII separators
U+001C to U+001F. Line breaks are blanks; zero-width characters are not.
-/

namespace FieldHint.Text

/-- The characters of white space. -/
def blankRanges : CharRanges :=
  [(0x09, 0x0D), (0x1C, 0x20), (0x85, 0x85), (0xA0, 0xA0), (0x1680, 0x1680), (0x2000, 0x200A),
   (0x2028, 0x2029), (0x202F, 0x202F), (0x205F, 0x205F), (0x3000, 0x3000)]

/-- Whether the character is white space. -/
def isBlank (c : Char) : Bool := blankRanges.covers c

/-- A space or a tab: white space that stays on its line. -/
def isSpacing (c : Char) : Bool := c = ' ' || c = '\t'

/-- The text without blanks at its start. -/
def stripStart (t : Text) : Text := t.dropWhile isBlank

/-- The text without blanks at its end. -/
def stripEnd (t : Text) : Text := dropWhileEnd isBlank t

/-- The text without blanks at either end. -/
def strip (t : Text) : Text := stripEnd (stripStart t)

/-- Whether the text holds nothing but blanks. -/
def isBlankText (t : Text) : Bool := t.all isBlank

end FieldHint.Text
