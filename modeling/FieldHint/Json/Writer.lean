import FieldHint.Json.Basic
import FieldHint.Text.Hex

/-!
# Writing JSON

In ASCII, two spaces for each level, every item and member on a line of its own.
-/

namespace FieldHint.Json

/-- An escape by code unit. -/
def writeCodeUnit (n : Nat) : Text := ['\\', 'u'] ++ Text.hex 4 n

/-- One character of a string. Above U+FFFF it takes the two halves of a pair. -/
def writeChar (c : Char) : Text :=
  if c = '"' then ['\\', '"']
  else if c = '\\' then ['\\', '\\']
  else if c = '\n' then ['\\', 'n']
  else if c = '\r' then ['\\', 'r']
  else if c = '\t' then ['\\', 't']
  else if c = '\x08' then ['\\', 'b']
  else if c = '\x0c' then ['\\', 'f']
  else if ' ' ≤ c ∧ c ≤ '~' then [c]
  else if c.toNat < 0x10000 then writeCodeUnit c.toNat
  else
    writeCodeUnit (0xD800 + (c.toNat - 0x10000) / 0x400) ++
      writeCodeUnit (0xDC00 + (c.toNat - 0x10000) % 0x400)

/-- A string. -/
def writeString (t : Text) : Text := '"' :: t.flatMap writeChar ++ ['"']

/-- A line break and the spaces of a level. -/
def newLine (level : Nat) : Text := '\n' :: List.replicate (2 * level) ' '

mutual

/-- A value that starts at a level. -/
def write (level : Nat) : Json → Text
  | null => ['n', 'u', 'l', 'l']
  | bool true => ['t', 'r', 'u', 'e']
  | bool false => ['f', 'a', 'l', 's', 'e']
  | int n => Text.ofInt n
  | decimal mantissa exponent => Text.ofInt mantissa ++ 'e' :: Text.ofInt exponent
  | notANumber => ['N', 'a', 'N']
  | infinite true => ['-', 'I', 'n', 'f', 'i', 'n', 'i', 't', 'y']
  | infinite false => ['I', 'n', 'f', 'i', 'n', 'i', 't', 'y']
  | string t => writeString t
  | array [] => ['[', ']']
  | array (item :: items) =>
    '[' :: newLine (level + 1) ++ write (level + 1) item ++ writeItems level items
  | object [] => ['{', '}']
  | object ((key, item) :: members) =>
    '{' :: newLine (level + 1) ++ writeString key ++ [':', ' '] ++ write (level + 1) item ++
      writeMembers level members

/-- The items of an array after the first, and its closing bracket. -/
def writeItems (level : Nat) : List Json → Text
  | [] => newLine level ++ [']']
  | item :: items =>
    ',' :: newLine (level + 1) ++ write (level + 1) item ++ writeItems level items

/-- The members of an object after the first, and its closing brace. -/
def writeMembers (level : Nat) : List (Text × Json) → Text
  | [] => newLine level ++ ['}']
  | (key, item) :: members =>
    ',' :: newLine (level + 1) ++ writeString key ++ [':', ' '] ++ write (level + 1) item ++
      writeMembers level members

end

/-- Write a value as JSON. -/
def toText (v : Json) : Text := write 0 v

end FieldHint.Json
