import FieldHint.Struct.Header
import FieldHint.Text.Lines

/-!
# Declarations

Declarations of struct types that stand on a line of their own: `type Name struct {`, spaces and
tabs around the words, up to the brace that closes the body.
-/

namespace FieldHint

/-- A struct declaration: its name, its text, the offset `start` from which comments above it are
looked for, and the offset `stop` of its closing brace. The declaration starts on the line at
`start`, or, behind another member of a group that ends there, on the rest of that line. -/
structure Declaration where
  name : Text
  start : Nat
  code : Text
  stop : Nat
  deriving DecidableEq, Repr

namespace Declaration

/-- The declaration that starts on a line of its own. -/
def atLine? (start : Nat) (t : Text) : Option Declaration := do
  let code := t.dropWhile Text.isSpacing
  let header ← Header.definition? Text.isSpacing code
  let last ← Brace.bodyEnd? header.rest
  let length := code.length - header.rest.length + last + 1
  return ⟨header.name, start, code.take length, start + (t.length - code.length) + length - 1⟩

/-- The declarations outside groups. -/
def ungrouped (document : Text) : List Declaration :=
  (Text.lineStarts document).filterMap fun (start, t) => atLine? start t

end Declaration

end FieldHint
