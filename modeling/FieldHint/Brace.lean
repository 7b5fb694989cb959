import FieldHint.Text.Basic

/-!
# Balanced braces

The brace that closes a struct body. Braces in raw strings, in quoted strings and in line
comments do not count. A quoted string ends at its quote or, if that is missing, with the line.
-/

namespace FieldHint.Brace

/-- What the scan stands in. A slash may be the first of the two that open a comment. -/
inductive Mode
  | code
  | slash
  | comment
  | quoted
  | quotedEscape
  | raw
  deriving DecidableEq, Repr

namespace Mode

/-- Whether braces count. -/
def isCode : Mode → Bool
  | code | slash => true
  | _ => false

/-- The mode after a character of code. -/
def entered (c : Char) : Mode :=
  if c = '\x60' then raw
  else if c = '"' then quoted
  else if c = '/' then slash
  else code

/-- The mode after a character. -/
def next : Mode → Char → Mode
  | code, c => entered c
  | slash, c => if c = '/' then comment else entered c
  | comment, c => if c = '\n' then code else comment
  | quoted, c =>
    if c = '"' ∨ c = '\n' then code else if c = '\\' then quotedEscape else quoted
  | quotedEscape, _ => quoted
  | raw, c => if c = '\x60' then code else raw

end Mode

/-- Where the scan has got to: what it stands in, and how many braces are open. The depth falls
below zero on text that closes more than it opens. -/
structure Scan where
  mode : Mode := .code
  depth : Int := 0
  deriving DecidableEq, Repr

namespace Scan

/-- How a character changes the depth. -/
def weight (s : Scan) (c : Char) : Int :=
  if s.mode.isCode then if c = '{' then 1 else if c = '}' then -1 else 0 else 0

/-- The scan after one more character. -/
def step (s : Scan) (c : Char) : Scan := ⟨s.mode.next c, s.depth + s.weight c⟩

/-- The scan after a text. -/
def run (s : Scan) (t : Text) : Scan := t.foldl step s

/-- Whether the character closes the last open brace. -/
def closesAt (s : Scan) (c : Char) : Bool := s.mode.isCode && c = '}' && s.depth = 1

/-- Where the last open brace is closed. -/
def closing? (s : Scan) : Text → Option Nat
  | [] => none
  | c :: t => if s.closesAt c then some 0 else ((s.step c).closing? t).map (· + 1)

end Scan

/-- Where the brace is closed that stands right before the text. -/
def bodyEnd? (t : Text) : Option Nat := Scan.closing? ⟨.code, 1⟩ t

/-- Where the brace at an offset is closed. -/
def closing? (text : Text) (openAt : Nat) : Option Nat :=
  (Scan.closing? {} (text.drop openAt)).map (openAt + ·)

end FieldHint.Brace
