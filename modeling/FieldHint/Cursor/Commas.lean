import FieldHint.Text.Basic

/-!
# Commas of a literal

How many commas stand between the elements of a composite literal, before the cursor. A comma
inside brackets or strings belongs to an element. Brackets of the three kinds are counted apart,
and nothing asks them to match: a depth may fall below zero, and then no comma counts until it
is back.
-/

namespace FieldHint.Cursor

/-- What the scan stands in. A backslash hides the next character in code as in quotes. -/
inductive LiteralMode
  | code
  | codeEscape
  | quoted
  | quotedEscape
  | raw
  deriving DecidableEq, Repr

namespace LiteralMode

/-- The mode after a character. -/
def next : LiteralMode → Char → LiteralMode
  | code, c =>
    if c = '\\' then codeEscape
    else if c = '"' then quoted
    else if c = '\x60' then raw
    else code
  | codeEscape, _ => code
  | quoted, c => if c = '\\' then quotedEscape else if c = '"' then code else quoted
  | quotedEscape, _ => quoted
  | raw, c => if c = '\x60' then code else raw

end LiteralMode

/-- How deep the scan is in brackets of each kind. -/
structure Depths where
  braces : Int := 0
  parens : Int := 0
  brackets : Int := 0
  deriving DecidableEq, Repr

namespace Depths

/-- The depths after a character of code. -/
def next (d : Depths) (c : Char) : Depths :=
  if c = '{' then { d with braces := d.braces + 1 }
  else if c = '}' then { d with braces := d.braces - 1 }
  else if c = '(' then { d with parens := d.parens + 1 }
  else if c = ')' then { d with parens := d.parens - 1 }
  else if c = '[' then { d with brackets := d.brackets + 1 }
  else if c = ']' then { d with brackets := d.brackets - 1 }
  else d

end Depths

/-- Where the scan of a literal has got to. -/
structure LiteralScan where
  mode : LiteralMode := .code
  depths : Depths := {}
  commas : Nat := 0
  deriving DecidableEq, Repr

namespace LiteralScan

/-- Whether the next comma would separate two elements of the literal itself. -/
def betweenElements (s : LiteralScan) : Bool := s.mode = .code && s.depths = {}

/-- The scan after one more character. -/
def step (s : LiteralScan) (c : Char) : LiteralScan where
  mode := s.mode.next c
  depths := if s.mode = .code then s.depths.next c else s.depths
  commas := if c = ',' ∧ s.betweenElements then s.commas + 1 else s.commas

/-- The scan after a text. -/
def run (s : LiteralScan) (t : Text) : LiteralScan := t.foldl step s

end LiteralScan

/-- The number of commas between the literal's own elements. -/
def countCommas (span : Text) : Nat := (LiteralScan.run {} span).commas

end FieldHint.Cursor
