import FieldHint.Json.Fault
import FieldHint.Text.Hex

/-!
# Reading JSON

A strict reader: control characters in strings are refused, and nothing may follow the value but
white space. Three words beside JSON proper are read as numbers. Each reader takes the text that
is left and returns what is left behind its value.
-/

namespace FieldHint.Json

namespace Reader

/-- White space between tokens. -/
def isSpace (c : Char) : Bool := c = ' ' || c = '\t' || c = '\n' || c = '\r'

/-- The text without white space at its start. -/
def skipSpace (t : Text) : Text := t.dropWhile isSpace

/-! ## Strings -/

/-- The character that a one-letter escape stands for. -/
def escape? : Char → Option Char
  | '"' => some '"'
  | '\\' => some '\\'
  | '/' => some '/'
  | 'b' => some '\x08'
  | 'f' => some '\x0c'
  | 'n' => some '\n'
  | 'r' => some '\r'
  | 't' => some '\t'
  | _ => none

/-- The four hexadecimal digits of a code unit. Something has to follow them. -/
def codeUnit? (t : Text) : Option (Nat × Text) :=
  match t.drop 4 with
  | [] => none
  | rest => (Text.hexNumber? (t.take 4)).map (·, rest)

/-- Whether a code unit is the first half of a pair. -/
def isHighSurrogate (n : Nat) : Bool := 0xD800 ≤ n && n < 0xDC00

/-- Whether a code unit is the second half of a pair. -/
def isLowSurrogate (n : Nat) : Bool := 0xDC00 ≤ n && n < 0xE000

/-- The character of a code unit of its own. Half a pair is none, and another one stands in. -/
def ofCodeUnit (n : Nat) : Char :=
  if isHighSurrogate n || isLowSurrogate n then standIn n else Char.ofNat n

/-- The character that two halves of a pair stand for. -/
def ofPair (high low : Nat) : Char :=
  Char.ofNat (0x10000 + (high - 0xD800) * 0x400 + (low - 0xDC00))

/-- The character of an escape by code units, behind its `u`. Two escapes make up a pair. -/
def unicodeEscape (t : Text) : Except Fault (Char × Text) :=
  match codeUnit? t with
  | none => .error ⟨.badCodeUnit, t.length + 1⟩
  | some (n, rest) =>
    match isHighSurrogate n, rest with
    | true, '\\' :: 'u' :: t =>
      if (t.drop 4).isEmpty then .ok (ofCodeUnit n, rest)
      else match codeUnit? t with
        | none => .error ⟨.badCodeUnit, t.length + 1⟩
        | some (m, rest') =>
          if isLowSurrogate m then .ok (ofPair n m, rest') else .ok (ofCodeUnit n, rest)
    | _, _ => .ok (ofCodeUnit n, rest)

/-- The character of an escape, behind its backslash. `opened` characters are left from the
opening quote on. -/
def escapeSequence (opened : Nat) : Text → Except Fault (Char × Text)
  | [] => .error ⟨.unterminatedString, opened⟩
  | 'u' :: t => unicodeEscape t
  | c :: t =>
    match escape? c with
    | some d => .ok (d, t)
    | none => .error ⟨.badEscape, t.length + 2⟩

/-- The rest of a string up to its closing quote. -/
def stringRest (opened : Nat) : (fuel : Nat) → Text → Except Fault (Text × Text)
  | 0, _ => .error ⟨.unterminatedString, opened⟩
  | _, [] => .error ⟨.unterminatedString, opened⟩
  | fuel + 1, c :: t =>
    if c = '"' then .ok ([], t)
    else if c = '\\' then do
      let (d, rest) ← escapeSequence opened t
      let (cs, rest) ← stringRest opened fuel rest
      return (d :: cs, rest)
    else if c.toNat < 0x20 then .error ⟨.controlCharacter, t.length + 1⟩
    else do
      let (cs, rest) ← stringRest opened fuel t
      return (c :: cs, rest)

/-- A string, behind its opening quote. -/
def string (t : Text) : Except Fault (Text × Text) := stringRest (t.length + 1) (t.length + 1) t

/-! ## Numbers -/

/-- The digits of an integer: one zero, or digits that start with another one. -/
def wholeDigits (t : Text) : Text × Text :=
  match t with
  | '0' :: rest => (['0'], rest)
  | _ => t.span Char.isDigit

/-- The digits of a fraction, if there is one. -/
def fractionDigits (t : Text) : Text × Text :=
  match t with
  | '.' :: rest => if (rest.takeWhile Char.isDigit).isEmpty then ([], t) else rest.span Char.isDigit
  | _ => ([], t)

/-- The digits behind the mark of an exponent, with the sign in front of them. -/
def signedDigits (t : Text) : Option (Int × Text) :=
  let sign : Int := if t.head? = some '-' then -1 else 1
  let digits := if t.head? = some '-' ∨ t.head? = some '+' then t.drop 1 else t
  if (digits.takeWhile Char.isDigit).isEmpty then none
  else some (sign * Text.toNat (digits.takeWhile Char.isDigit), digits.dropWhile Char.isDigit)

/-- The exponent, if there is one. -/
def exponent? : Text → Option (Int × Text)
  | 'e' :: t => signedDigits t
  | 'E' :: t => signedDigits t
  | _ => none

/-- A number. -/
def number (t : Text) : Except Fault (Json × Text) :=
  let sign : Int := if t.head? = some '-' then -1 else 1
  let (whole, rest) := wholeDigits (if t.head? = some '-' then t.drop 1 else t)
  if whole.isEmpty then .error ⟨.noValue, t.length⟩
  else
    let (fraction, rest) := fractionDigits rest
    match fraction.isEmpty, exponent? rest with
    | true, none =>
      if Text.maxDigits < whole.length then .error ⟨.tooManyDigits whole.length, t.length⟩
      else .ok (.int (sign * Text.toNat whole), rest)
    | _, none => .ok (.decimal (sign * Text.toNat (whole ++ fraction)) (-fraction.length), rest)
    | _, some (e, rest) =>
      .ok (.decimal (sign * Text.toNat (whole ++ fraction)) (e - fraction.length), rest)

/-! ## Values -/

/-- The values that are written as a word. -/
def words : List (Text × Json) :=
  [("null".toList, .null), ("true".toList, .bool true), ("false".toList, .bool false),
   ("NaN".toList, .notANumber), ("Infinity".toList, .infinite false),
   ("-Infinity".toList, .infinite true)]

/-- A value that is written as a word. -/
def word? (t : Text) : Option (Json × Text) :=
  words.findSome? fun (word, value) => (Text.after? word t).map (value, ·)

mutual

/-- A value. -/
def value : (fuel : Nat) → Text → Except Fault (Json × Text)
  | 0, t => .error ⟨.noValue, t.length⟩
  | fuel + 1, t =>
    match t with
    | '"' :: rest => do
      let (s, rest) ← string rest
      return (.string s, rest)
    | '[' :: rest =>
      match skipSpace rest with
      | ']' :: rest => .ok (.array [], rest)
      | rest => do
        let (items, rest) ← elements fuel rest
        return (.array items, rest)
    | '{' :: rest =>
      match skipSpace rest with
      | '}' :: rest => .ok (.object [], rest)
      | rest => do
        let (entries, rest) ← members fuel rest
        return (.object entries, rest)
    | t =>
      match word? t with
      | some result => .ok result
      | none => number t

/-- The elements of an array up to its closing bracket. There is at least one. -/
def elements : (fuel : Nat) → Text → Except Fault (List Json × Text)
  | 0, t => .error ⟨.noValue, t.length⟩
  | fuel + 1, t => do
    let (item, rest) ← value fuel t
    match skipSpace rest with
    | ']' :: rest => return ([item], rest)
    | ',' :: rest =>
      let (items, rest) ← elements fuel (skipSpace rest)
      return (item :: items, rest)
    | rest => throw ⟨.noComma, rest.length⟩

/-- The members of an object up to its closing brace. There is at least one. -/
def members : (fuel : Nat) → Text → Except Fault (List (Text × Json) × Text)
  | 0, t => .error ⟨.noPropertyName, t.length⟩
  | fuel + 1, t =>
    match t with
    | '"' :: rest => do
      let (key, rest) ← string rest
      match skipSpace rest with
      | ':' :: rest =>
        let (item, rest) ← value fuel (skipSpace rest)
        match skipSpace rest with
        | '}' :: rest => return ([(key, item)], rest)
        | ',' :: rest =>
          let (entries, rest) ← members fuel (skipSpace rest)
          return ((key, item) :: entries, rest)
        | rest => throw ⟨.noComma, rest.length⟩
      | rest => throw ⟨.noColon, rest.length⟩
    | t => .error ⟨.noPropertyName, t.length⟩

end

/-- The fuel that every value of the text can be read with: a step into an array or object costs
two, and each takes a character. -/
def enoughFuel (t : Text) : Nat := 2 * t.length + 1

/-- The value that a text holds, or the first fault. -/
def document (t : Text) : Except Fault Json := do
  let (v, rest) ← value (enoughFuel t) (skipSpace t)
  match skipSpace rest with
  | [] => return v
  | rest => throw ⟨.extraData, rest.length⟩

end Reader

/-- Read a text as JSON. -/
def read (t : Text) : Except ReadError Json :=
  (Reader.document t).mapError (ReadError.ofFault t)

end FieldHint.Json
