import FieldHint.Text.Hex

/-!
# Reading bytes as text

Strict UTF-8. A fault spans the longest start of a character that the bytes still allowed, and
says whether that start is no lead byte, meets a byte that cannot follow, or runs into the end.
-/

namespace FieldHint.Text

/-- Bytes as numbers below 256. -/
abbrev Bytes := List UInt8

namespace Utf8

/-- Why bytes are no text. -/
inductive Cause
  | start
  | continuation
  | truncated
  deriving DecidableEq, Repr

/-- The faulty bytes: where they start and what they are. -/
structure Fault where
  cause : Cause
  start : Nat
  bytes : Bytes
  deriving DecidableEq, Repr

/-- What a lead byte promises: its own bits, the range of the byte after it, and how many more
bytes follow that one. -/
structure Lead where
  bits : Nat
  low : UInt8
  high : UInt8
  further : Nat

/-- The lead bytes of characters outside ASCII. The range of the second byte excludes overlong
forms, surrogates and code points above U+10FFFF. -/
def lead? (b : UInt8) : Option Lead :=
  if 0xC2 ≤ b ∧ b ≤ 0xDF then some ⟨b.toNat - 0xC0, 0x80, 0xBF, 0⟩
  else if b = 0xE0 then some ⟨0x0, 0xA0, 0xBF, 1⟩
  else if b = 0xED then some ⟨0xD, 0x80, 0x9F, 1⟩
  else if 0xE1 ≤ b ∧ b ≤ 0xEF then some ⟨b.toNat - 0xE0, 0x80, 0xBF, 1⟩
  else if b = 0xF0 then some ⟨0, 0x90, 0xBF, 2⟩
  else if 0xF1 ≤ b ∧ b ≤ 0xF3 then some ⟨b.toNat - 0xF0, 0x80, 0xBF, 2⟩
  else if b = 0xF4 then some ⟨4, 0x80, 0x8F, 2⟩
  else none

/-- Between characters, or inside one: the bits so far, what the next byte may be, how many bytes
follow it, and the bytes read, last first. -/
inductive State
  | between
  | inside (bits : Nat) (low high : UInt8) (further : Nat) (start : Nat) (seen : Bytes)

/-- The text of bytes that stand at offset `n`. -/
def decodeFrom (n : Nat) : State → Bytes → Except Fault Text
  | .between, [] => .ok []
  | .inside _ _ _ _ start seen, [] => .error ⟨.truncated, start, seen.reverse⟩
  | .between, b :: bs =>
    if b < 0x80 then (decodeFrom (n + 1) .between bs).map (Char.ofNat b.toNat :: ·)
    else match lead? b with
      | none => .error ⟨.start, n, [b]⟩
      | some l => decodeFrom (n + 1) (.inside l.bits l.low l.high l.further n [b]) bs
  | .inside bits low high further start seen, b :: bs =>
    if low ≤ b ∧ b ≤ high then
      let bits := bits * 64 + (b.toNat - 0x80)
      match further with
      | 0 => (decodeFrom (n + 1) .between bs).map (Char.ofNat bits :: ·)
      | k + 1 => decodeFrom (n + 1) (.inside bits 0x80 0xBF k start (b :: seen)) bs
    else .error ⟨.continuation, start, seen.reverse⟩

/-- The text that the bytes encode. -/
def decode (bs : Bytes) : Except Fault Text := decodeFrom 0 .between bs

/-- The cause in words. -/
def Cause.message : Cause → Text
  | .start => "invalid start byte".toList
  | .continuation => "invalid continuation byte".toList
  | .truncated => "unexpected end of data".toList

/-- The fault in words. -/
def Fault.message (f : Fault) : Text :=
  let place := match f.bytes with
    | [b] => "byte 0x".toList ++ hex 2 b.toNat ++ " in position ".toList ++ ofNat f.start
    | bs => "bytes in position ".toList ++ ofNat f.start ++ "-".toList ++
        ofNat (f.start + bs.length - 1)
  "\x27utf-8\x27 codec can\x27t decode ".toList ++ place ++ ": ".toList ++ f.cause.message

end Utf8

/-- The text with every line break of the forms CR LF and CR written as a line feed. -/
def unixLines : Text → Text
  | [] => []
  | '\r' :: '\n' :: t => '\n' :: unixLines t
  | c :: t => (if c = '\r' then '\n' else c) :: unixLines t

end FieldHint.Text
