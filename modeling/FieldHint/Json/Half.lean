import FieldHint.Json.Reader

/-!
# Halves of pairs

A string of JSON may hold half a pair of code units, which is no character. Where it is read, a
character stands in for it, and what is found in the text afterwards does not show that there was
none. So the text is written anew, with another stand-in: whatever the two readings agree on is
free of halves, and where they differ there is one. What is written of the two in the end can then
be put together, with the halves in it.
-/

namespace FieldHint.Json

/-- The other character that stands in for half a pair, for private use like the one that is
read. -/
def otherStandIn (n : Nat) : Char := Char.ofNat (n + 0x1800)

/-- The half of a pair that an escape is, given without its backslash. -/
def half? : Text → Option Nat
  | 'u' :: digits =>
    (Text.hexNumber? digits).filter fun n => Reader.isHighSurrogate n || Reader.isLowSurrogate n
  | _ => none

/-- An escape, given without its backslash, or the other stand-in if it is half a pair. -/
def respellEscape (escape : Text) : Text :=
  match half? escape with
  | some n => [otherStandIn n]
  | none => '\\' :: escape

/-- The text with the other stand-in for every escape that is read as half a pair. An escape is as
long as the reader takes it, so both halves of a pair are one. -/
def respellFrom : (fuel : Nat) → Text → Text
  | 0, t => t
  | _, [] => []
  | fuel + 1, c :: t =>
    if c = '\\' then
      match Reader.escapeSequence 0 t with
      | .ok (_, rest) => respellEscape (t.take (t.length - rest.length)) ++ respellFrom fuel rest
      | .error _ => c :: t
    else c :: respellFrom fuel t

/-- A JSON text with the other stand-in for every half of a pair. -/
def respell (t : Text) : Text := respellFrom t.length t

/-- What is written of a text with halves of pairs, given what is written of it with the one
stand-in and with the other, each of them as an escape. The escape of a half has the digits of the
first of the two but for a d in the place of the e, where the second has an f. -/
def restore (written other : Text) : Text :=
  List.zipWith (fun c d => if c = 'e' ∧ d = 'f' then 'd' else c) written other

end FieldHint.Json
