import Mathlib
import FieldHint.Json.Basic
import FieldHint.Text.Hex

/-!
# JSON — the grammar

Which texts are JSON, and which value each of them stands for. A value has many texts: a character
may be escaped, a digit of an escape may have either case, and white space may stand between any
two tokens.

`IsValue` is the grammar of a value, `IsDocument` that of a whole text. In the proper dialect it is
that of JSON; the extended one is what is read here as JSON, in which half a pair of code units may
stand alone and three more words are numbers.
-/

namespace FieldHint.Json

/-- What counts as JSON. -/
inductive Dialect
  | proper
  | extended
  deriving DecidableEq, Repr

/-- White space between tokens. -/
def IsSpaces (t : Text) : Prop := ∀ c ∈ t, c ∈ [' ', '\t', '\n', '\r']

instance (t : Text) : Decidable (IsSpaces t) := List.decidableBAll _ t

/-! ## Strings -/

/-- The escapes of one letter, and the characters that they stand for. -/
def letterEscapes : List (Char × Char) :=
  [('"', '"'), ('\\', '\\'), ('/', '/'), ('b', '\x08'), ('f', '\x0c'), ('n', '\n'), ('r', '\r'),
   ('t', '\t')]

/-- The four hexadecimal digits of a code unit, each in either case. -/
structure IsCodeUnit (n : Nat) (digits : Text) : Prop where
  lt : n < 0x10000
  digits_eq : digits.map Char.toLower = Text.hex 4 n

/-- Half a pair of code units: one that is no character by itself. -/
def IsHalf (n : Nat) : Prop := 0xD800 ≤ n ∧ n < 0xE000

/-- The ways to write a character in a string. Above U+FFFF it is a pair of code units. -/
inductive Writes : Char → Text → Prop
  | raw {c : Char} : c ≠ '"' → c ≠ '\\' → 0x20 ≤ c.toNat → Writes c [c]
  | letter {x c : Char} : (x, c) ∈ letterEscapes → Writes c ['\\', x]
  | unit {c : Char} {digits : Text} : IsCodeUnit c.toNat digits → Writes c ('\\' :: 'u' :: digits)
  | pair {c : Char} {high low : Text} : 0x10000 ≤ c.toNat →
    IsCodeUnit (0xD800 + (c.toNat - 0x10000) / 0x400) high →
      IsCodeUnit (0xDC00 + (c.toNat - 0x10000) % 0x400) low →
        Writes c ('\\' :: 'u' :: (high ++ '\\' :: 'u' :: low))

/-- The code unit is the first half of a pair, and the text starts with the second. -/
def Joins (n : Nat) (t : Text) : Prop :=
  n < 0xDC00 ∧ ∃ m low rest, 0xDC00 ≤ m ∧ m < 0xE000 ∧ IsCodeUnit m low ∧
    t = '\\' :: 'u' :: (low ++ rest)

/-- What stands between the quotes of a string. For half a pair without the other half there is a
stand-in. -/
inductive Spells (d : Dialect) : Text → Text → Prop
  | nil : Spells d [] []
  | char {c : Char} {e s t : Text} : Writes c e → Spells d s t → Spells d (c :: s) (e ++ t)
  | half {n : Nat} {digits s t : Text} : d = .extended → IsHalf n → IsCodeUnit n digits →
    ¬ Joins n t → Spells d s t → Spells d (standIn n :: s) ('\\' :: 'u' :: (digits ++ t))

/-! ## Numbers and words -/

/-- A run of digits. -/
structure IsDigits (t : Text) : Prop where
  ne_nil : t ≠ []
  chars : ∀ c ∈ t, c.isDigit = true

/-- The digits in front of a fraction: no zero stands in front of another digit. -/
structure IsWhole (t : Text) : Prop extends IsDigits t where
  no_zero : t.head? = some '0' → t = ['0']

/-- The sign in front of a number. -/
inductive IsSign : Int → Text → Prop
  | plus : IsSign 1 []
  | minus : IsSign (-1) ['-']

/-- The digits of a fraction, behind its point. -/
inductive IsFraction : Text → Text → Prop
  | none : IsFraction [] []
  | digits {t : Text} : IsDigits t → IsFraction t ('.' :: t)

/-- An exponent, with a sign of either kind or without one. -/
inductive IsExponent : Int → Text → Prop
  | none : IsExponent 0 []
  | digits {mark : Char} {sign : Int} {s t : Text} : mark = 'e' ∨ mark = 'E' →
    IsSign sign s ∨ sign = 1 ∧ s = ['+'] → IsDigits t →
      IsExponent (sign * Text.toNat t) (mark :: (s ++ t))

/-- Words and numbers. An integer has a limited number of digits. -/
inductive IsScalar (d : Dialect) : Json → Text → Prop
  | null : IsScalar d .null ['n', 'u', 'l', 'l']
  | true : IsScalar d (.bool true) ['t', 'r', 'u', 'e']
  | false : IsScalar d (.bool false) ['f', 'a', 'l', 's', 'e']
  | integer {sign : Int} {s whole : Text} : IsSign sign s → IsWhole whole →
    whole.length ≤ Text.maxDigits → IsScalar d (.int (sign * Text.toNat whole)) (s ++ whole)
  | decimal {sign exponent : Int} {s whole fraction f e : Text} : IsSign sign s → IsWhole whole →
    IsFraction fraction f → IsExponent exponent e → f ++ e ≠ [] →
      IsScalar d (.decimal (sign * Text.toNat (whole ++ fraction)) (exponent - fraction.length))
        (s ++ (whole ++ (f ++ e)))
  | notANumber : d = .extended → IsScalar d .notANumber ['N', 'a', 'N']
  | infinite : d = .extended →
    IsScalar d (.infinite Bool.false) ['I', 'n', 'f', 'i', 'n', 'i', 't', 'y']
  | minusInfinite : d = .extended →
    IsScalar d (.infinite Bool.true) ['-', 'I', 'n', 'f', 'i', 'n', 'i', 't', 'y']

/-! ## Values -/

mutual

/-- A value. -/
inductive IsValue (d : Dialect) : Json → Text → Prop
  | scalar {v : Json} {t : Text} : IsScalar d v t → IsValue d v t
  | string {s t : Text} : Spells d s t → IsValue d (.string s) ('"' :: (t ++ ['"']))
  | noItems {ws : Text} : IsSpaces ws → IsValue d (.array []) ('[' :: (ws ++ [']']))
  | items {vs : List Json} {ws t : Text} : IsSpaces ws → IsItems d vs t →
    IsValue d (.array vs) ('[' :: (ws ++ t))
  | noMembers {ws : Text} : IsSpaces ws → IsValue d (.object []) ('{' :: (ws ++ ['}']))
  | members {ms : List (Text × Json)} {ws t : Text} : IsSpaces ws → IsMembers d ms t →
    IsValue d (.object ms) ('{' :: (ws ++ t))

/-- The items of an array and its closing bracket. -/
inductive IsItems (d : Dialect) : List Json → Text → Prop
  | last {v : Json} {ws t : Text} : IsValue d v t → IsSpaces ws → IsItems d [v] (t ++ (ws ++ [']']))
  | more {v : Json} {vs : List Json} {ws ws' t u : Text} : IsValue d v t → IsSpaces ws →
    IsSpaces ws' → IsItems d vs u → IsItems d (v :: vs) (t ++ (ws ++ ',' :: (ws' ++ u)))

/-- A member of an object: its key and its value. -/
inductive IsMember (d : Dialect) : Text × Json → Text → Prop
  | member {key : Text} {v : Json} {ws ws' t u : Text} : Spells d key t → IsSpaces ws →
    IsSpaces ws' → IsValue d v u →
      IsMember d (key, v) ('"' :: (t ++ '"' :: (ws ++ ':' :: (ws' ++ u))))

/-- The members of an object and its closing brace. -/
inductive IsMembers (d : Dialect) : List (Text × Json) → Text → Prop
  | last {m : Text × Json} {ws t : Text} : IsMember d m t → IsSpaces ws →
    IsMembers d [m] (t ++ (ws ++ ['}']))
  | more {m : Text × Json} {ms : List (Text × Json)} {ws ws' t u : Text} : IsMember d m t →
    IsSpaces ws → IsSpaces ws' → IsMembers d ms u →
      IsMembers d (m :: ms) (t ++ (ws ++ ',' :: (ws' ++ u)))

end

/-- A whole text: a value and white space around it. -/
def IsDocument (d : Dialect) (v : Json) (t : Text) : Prop :=
  ∃ ws u ws', IsSpaces ws ∧ IsValue d v u ∧ IsSpaces ws' ∧ t = ws ++ (u ++ ws')

end FieldHint.Json
