import FieldHint.Text.Basic

/-!
# JSON values
-/

namespace FieldHint

/-- A JSON value. A number with a fraction or an exponent is a mantissa and a power of ten; the
three values that are no numbers of JSON proper are accepted by the reader as well. Members of
an object keep their order, and a key may occur twice. -/
inductive Json
  | null
  | bool (value : Bool)
  | int (value : Int)
  | decimal (mantissa exponent : Int)
  | notANumber
  | infinite (negative : Bool)
  | string (value : Text)
  | array (items : List Json)
  | object (members : List (Text × Json))

namespace Json

/-- The character that stands in for half a pair of code units, which is none itself. It is one for
private use: like the half it is no letter, no digit and no blank, and messages do not show it as it
is, so nothing that is found in a text depends on which of the two is there. Where it is the half
that matters, `Json.respell` tells it from the same character in the text. -/
def standIn (n : Nat) : Char := Char.ofNat (n + 0x1000)

/-- The value of a key: of members with the same key the last one counts. -/
def member? (members : List (Text × Json)) (key : Text) : Option Json :=
  (members.reverse.find? (·.1 = key)).map (·.2)

end Json

end FieldHint
