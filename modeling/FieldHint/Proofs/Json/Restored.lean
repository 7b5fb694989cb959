import FieldHint.Json.Writer
import FieldHint.Proofs.Json.Half
import FieldHint.Text.Quoted

/-!
# JSON — halves of pairs where they are written

What is written of the two readings of a text is put together to what is written of the text, with
each half of a pair as its escape:

* `restore_writeString` — in a string of JSON;
* `restore_quoted` — in a message;
* `restore_self` — where the readings are the same, so is what is put together.

The two writers are alike in that they escape a stand-in by its code unit (`Escapes`), and that is
all that counts of them.
-/

namespace FieldHint.Json

open Reader Text

variable {c : Char} {n : Nat} {a b a' b' s s' : Text} {points : List Nat} {write : Char → Text}

@[simp] theorem restore_self (t : Text) : restore t t = t := by
  induction t with
  | nil => rfl
  | cons c t ih =>
    have hSame : ¬ (c = 'e' ∧ c = 'f') := by
      rintro ⟨rfl, h⟩
      cases h
    show (if c = 'e' ∧ c = 'f' then 'd' else c) :: restore t t = c :: t
    rw [if_neg hSame, ih]

theorem restore_append (h : a.length = b.length) :
    restore (a ++ a') (b ++ b') = restore a b ++ restore a' b' :=
  List.zipWith_append h

/-! ## Escapes -/

theorem hex_four (n : Nat) :
    Text.hex 4 n = [hexDigit (n / 16 / 16 / 16 % 16), hexDigit (n / 16 / 16 % 16),
      hexDigit (n / 16 % 16), hexDigit (n % 16)] := rfl

/-- The digits of a half from those of its stand-ins. -/
theorem restore_hex (h : IsHalf n) :
    restore (Text.hex 4 (n + 0x1000)) (Text.hex 4 (n + 0x1800)) = Text.hex 4 n := by
  obtain ⟨hLow, hHigh⟩ := h
  -- the first digits are e and f, the second ones eight apart, and the others are the same
  have hFirst : (n + 0x1000) / 16 / 16 / 16 % 16 = 14 ∧ (n + 0x1800) / 16 / 16 / 16 % 16 = 15 ∧
      n / 16 / 16 / 16 % 16 = 13 := by omega
  have hSecond : (n + 0x1000) / 16 / 16 % 16 = n / 16 / 16 % 16 ∧
      (n + 0x1800) / 16 / 16 % 16 < 8 := by omega
  have hThird : (n + 0x1000) / 16 % 16 = n / 16 % 16 ∧ (n + 0x1800) / 16 % 16 = n / 16 % 16 := by
    omega
  have hFourth : (n + 0x1000) % 16 = n % 16 ∧ (n + 0x1800) % 16 = n % 16 := by omega
  have hNoF : ∀ k < 8, hexDigit k ≠ 'f' := by decide
  have hTail := restore_self [hexDigit (n / 16 % 16), hexDigit (n % 16)]
  rw [hex_four, hex_four, hex_four, hFirst.1, hFirst.2.1, hFirst.2.2, hSecond.1, hThird.1,
    hThird.2, hFourth.1, hFourth.2]
  show 'd' :: (if hexDigit (n / 16 / 16 % 16) = 'e' ∧ hexDigit ((n + 0x1800) / 16 / 16 % 16) = 'f'
    then 'd' else hexDigit (n / 16 / 16 % 16)) :: restore _ _ = _
  rw [if_neg fun hBoth => hNoF _ hSecond.2 hBoth.2, hTail]
  rfl

theorem length_writeCodeUnit (n : Nat) : (writeCodeUnit n).length = 6 := by
  rw [writeCodeUnit, List.length_append, length_hex]
  rfl

/-- The characters that stand in for halves of pairs are written by their code units. -/
def Escapes (write : Char → Text) : Prop := ∀ c, IsStandIn c → write c = writeCodeUnit c.toNat

/-- The escape of a half from those of its stand-ins. -/
theorem Escapes.restore_half (hWrite : Escapes write) (h : IsHalf n) :
    (write (standIn n)).length = (write (otherStandIn n)).length ∧
      restore (write (standIn n)) (write (otherStandIn n)) = writeCodeUnit n := by
  rw [hWrite _ (isStandIn_standIn h), hWrite _ (isStandIn_otherStandIn h), toNat_standIn h,
    toNat_otherStandIn h]
  constructor
  · rw [length_writeCodeUnit, length_writeCodeUnit]
  · rw [writeCodeUnit, writeCodeUnit, writeCodeUnit, restore_append rfl, restore_self,
      restore_hex h]

/-! ## Texts -/

/-- How a code point is written: half a pair as its escape. -/
def writePoint (write : Char → Text) (n : Nat) : Text :=
  if 0xD800 ≤ n ∧ n < 0xE000 then writeCodeUnit n else write (Char.ofNat n)

/-- What is written of two readings is put together to what they are readings of. -/
theorem Escapes.restore_flatMap (hWrite : Escapes write) (h : Readings points s s') :
    (s.flatMap write).length = (s'.flatMap write).length ∧
      restore (s.flatMap write) (s'.flatMap write) = points.flatMap (writePoint write) := by
  induction h with
  | nil => exact ⟨rfl, rfl⟩
  | @char c points s s' _ ih =>
    have hWhole : ¬ (0xD800 ≤ c.toNat ∧ c.toNat < 0xE000) := not_isHalf_toNat c
    have hPoint : writePoint write c.toNat = write c := by
      rw [writePoint, if_neg hWhole, Char.ofNat_toNat]
    simp only [List.flatMap_cons, List.length_append]
    rw [restore_append rfl, restore_self, ih.1, ih.2, hPoint]
    exact ⟨rfl, rfl⟩
  | @half n points s s' hHalf _ ih =>
    obtain ⟨hLength, hRestore⟩ := hWrite.restore_half hHalf
    have hPoint : writePoint write n = writeCodeUnit n := if_pos hHalf
    simp only [List.flatMap_cons, List.length_append]
    rw [restore_append hLength, hLength, hRestore, ih.1, ih.2, hPoint]
    exact ⟨rfl, rfl⟩

/-- So it is between quotes. -/
theorem Escapes.restore_between (hWrite : Escapes write) (h : Readings points s s') (quote : Char) :
    restore (quote :: s.flatMap write ++ [quote]) (quote :: s'.flatMap write ++ [quote]) =
      quote :: points.flatMap (writePoint write) ++ [quote] := by
  obtain ⟨hLength, hRestore⟩ := hWrite.restore_flatMap h
  have hQuoted : (quote :: s.flatMap write).length = (quote :: s'.flatMap write).length :=
    congrArg (· + 1) hLength
  have hOpened : restore (quote :: s.flatMap write) (quote :: s'.flatMap write) =
      quote :: restore (s.flatMap write) (s'.flatMap write) := by
    rw [← List.singleton_append, ← List.singleton_append (l := s'.flatMap write),
      restore_append rfl, restore_self]
    rfl
  rw [restore_append hQuoted, hOpened, restore_self, hRestore]

/-! ## Strings of JSON -/

theorem IsStandIn.not_le_tilde (h : IsStandIn c) : ¬ c ≤ '~' := by
  obtain ⟨hLow, -⟩ := h
  rw [Char.le_def, UInt32.le_iff_toNat_le, Char.toNat_val]
  show ¬ c.toNat ≤ 0x7E
  omega

theorem escapes_writeChar : Escapes writeChar := by
  intro c hc
  have hShort : c.toNat < 0x10000 := by
    have hBound := hc.2
    omega
  -- none of the characters with an escape of one letter, none of ASCII, and no pair
  rw [writeChar, if_neg (hc.ne (by decide)), if_neg (hc.ne (by decide)),
    if_neg (hc.ne (by decide)), if_neg (hc.ne (by decide)), if_neg (hc.ne (by decide)),
    if_neg (hc.ne (by decide)), if_neg (hc.ne (by decide)), if_neg fun h => hc.not_le_tilde h.2,
    if_pos hShort]

/-- A string of JSON is written with the halves that it was read with. -/
theorem restore_writeString (h : Readings points s s') :
    restore (writeString s) (writeString s') =
      '"' :: points.flatMap (writePoint writeChar) ++ ['"'] :=
  escapes_writeChar.restore_between h '"'

/-! ## Messages -/

/-- The characters that stand in are not shown as they are. -/
theorem IsStandIn.isPrintable_eq (h : IsStandIn c) : isPrintable c = false := by
  have hTable : printableRanges.covers c = false :=
    covers_eq_false_of_apart (by decide +kernel) h.covers
  simp [isPrintable, hTable, h.not_le_tilde]

theorem escapes_quoteChar {quote : Char} (hQuote : quote.toNat < 0x80) :
    Escapes (quoteChar quote) := by
  intro c hc
  have hPlain : ¬ (c = quote ∨ c = '\\') := by
    rw [not_or]
    exact ⟨hc.ne (by omega), hc.ne (by decide)⟩
  have hHidden : ¬ isPrintable c = true := by
    rw [hc.isPrintable_eq]
    decide
  have hBounds := hc
  obtain ⟨hLow, hHigh⟩ := hBounds
  rw [quoteChar, if_neg hPlain, if_neg (hc.ne (by decide)), if_neg (hc.ne (by decide)),
    if_neg (hc.ne (by decide)), if_neg hHidden, if_neg (by omega), if_pos (by omega)]
  rfl

/-- A character that stands for itself is in both readings or in neither. -/
theorem Readings.mem_iff (h : Readings points s s') (hc : c.toNat < 0xE800) : c ∈ s ↔ c ∈ s' := by
  induction h with
  | nil => rfl
  | char x _ ih => rw [List.mem_cons, List.mem_cons, ih]
  | half hHalf _ ih =>
    rw [List.mem_cons, List.mem_cons, ih, or_iff_right ((isStandIn_standIn hHalf).ne hc).symm,
      or_iff_right ((isStandIn_otherStandIn hHalf).ne hc).symm]

/-- A text is quoted with the halves that it was read with. -/
theorem restore_quoted (h : Readings points s s') :
    restore (quoted s) (quoted s') =
      quoteFor s :: points.flatMap (writePoint (quoteChar (quoteFor s))) ++ [quoteFor s] := by
  have hSame : quoteFor s' = quoteFor s := by
    simp only [quoteFor, h.mem_iff (c := '\x27') (by decide), h.mem_iff (c := '"') (by decide)]
  have hQuote : (quoteFor s).toNat < 0x80 := by
    unfold quoteFor
    split <;> decide
  rw [quoted, quoted, hSame]
  exact (escapes_quoteChar hQuote).restore_between h (quoteFor s)

end FieldHint.Json
