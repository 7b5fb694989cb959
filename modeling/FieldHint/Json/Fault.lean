import FieldHint.Json.Basic
import FieldHint.Position

/-!
# Why a text is no JSON
-/

namespace FieldHint.Json

/-- What is wrong. -/
inductive Complaint
  | noValue
  | noPropertyName
  | noColon
  | noComma
  | extraData
  | controlCharacter
  | badEscape
  | badCodeUnit
  | unterminatedString
  | tooManyDigits (count : Nat)
  deriving DecidableEq, Repr

/-- What is wrong, and how many characters are left from there on. -/
structure Fault where
  complaint : Complaint
  left : Nat
  deriving DecidableEq, Repr

namespace Complaint

/-- The complaint in words. -/
def message : Complaint → Text
  | noValue => "Expecting value".toList
  | noPropertyName => "Expecting property name enclosed in double quotes".toList
  | noColon => "Expecting \x27:\x27 delimiter".toList
  | noComma => "Expecting \x27,\x27 delimiter".toList
  | extraData => "Extra data".toList
  | controlCharacter => "Invalid control character at".toList
  | badEscape => "Invalid \\escape".toList
  | badCodeUnit => "Invalid \\uXXXX escape".toList
  | unterminatedString => "Unterminated string starting at".toList
  | tooManyDigits n =>
    "Exceeds the limit (".toList ++ Text.ofNat Text.maxDigits ++
      " digits) for integer string conversion: value has ".toList ++ Text.ofNat n ++
      " digits; use sys.set_int_max_str_digits() to increase the limit".toList

end Complaint

/-- A fault placed in the text that was read. -/
structure ReadError where
  complaint : Complaint
  offset : Nat
  position : Position
  deriving DecidableEq, Repr

namespace ReadError

/-- The error of a fault that was met while reading a text. -/
def ofFault (text : Text) (f : Fault) : ReadError :=
  let offset := text.length - f.left
  ⟨f.complaint, offset, Position.ofOffset text offset⟩

/-- The error in words. Lines and columns are counted from one. -/
def message (e : ReadError) : Text :=
  match e.complaint with
  | .tooManyDigits _ => e.complaint.message
  | _ =>
    e.complaint.message ++ ": line ".toList ++ Text.ofNat (e.position.line + 1) ++
      " column ".toList ++ Text.ofNat (e.position.character + 1) ++
      " (char ".toList ++ Text.ofNat e.offset ++ ")".toList

end ReadError

end FieldHint.Json
