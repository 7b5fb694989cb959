import FieldHint.Json.Writer
import FieldHint.Proofs.Json.Value
import FieldHint.Proofs.Text.Integer

/-!
# JSON — what is written is read back

A value is written in one of the ways that the grammar allows for it, so whoever reads JSON reads
the value again.

* `isAscii_toText` — whatever is in the value, its text is ASCII;
* `isDocument_toText` — the text stands for the value, in JSON proper if the value is one of it;
* `read_toText` — it is read as the value.

The one value that is lost is an integer with more digits than are read; `IsLegible` rules it out.
-/

namespace FieldHint

/-- All characters are of ASCII. -/
def Text.IsAscii (t : Text) : Prop := ∀ c ∈ t, c.toNat < 0x80

instance (t : Text) : Decidable t.IsAscii := List.decidableBAll _ t

namespace Text.IsAscii

variable {c : Char} {t u : Text}

theorem append (ht : t.IsAscii) (hu : u.IsAscii) : (t ++ u).IsAscii :=
  List.forall_mem_append.mpr ⟨ht, hu⟩

theorem cons (ht : t.IsAscii) (hc : c.toNat < 0x80) : Text.IsAscii (c :: t) :=
  List.forall_mem_cons.mpr ⟨hc, ht⟩

end Text.IsAscii

namespace Json

open Reader

variable {d : Dialect} {v : Json} {c : Char} {n : Nat} {s t u : Text}

/-! ## Characters -/

theorem toLower_hexDigit : ∀ k < 16, (Text.hexDigit k).toLower = Text.hexDigit k := by decide

/-- A code unit is written in lower-case digits. -/
theorem isCodeUnit_hex (hn : n < 0x10000) : IsCodeUnit n (Text.hex 4 n) where
  lt := hn
  digits_eq := by
    refine (List.map_congr_left ?_).trans (List.map_id _)
    intro c hc
    obtain ⟨k, hk, rfl⟩ := Text.exists_hexDigit_of_mem hc
    exact toLower_hexDigit k hk

/-- The two halves of a pair. -/
theorem writes_pair (hc : 0x10000 ≤ c.toNat)
    (hHigh : 0xD800 + (c.toNat - 0x10000) / 0x400 < 0x10000)
    (hLow : 0xDC00 + (c.toNat - 0x10000) % 0x400 < 0x10000) :
    Writes c (writeCodeUnit (0xD800 + (c.toNat - 0x10000) / 0x400) ++
      writeCodeUnit (0xDC00 + (c.toNat - 0x10000) % 0x400)) := by
  have hJoin : ∀ n m, writeCodeUnit n ++ writeCodeUnit m =
      '\\' :: 'u' :: (Text.hex 4 n ++ '\\' :: 'u' :: Text.hex 4 m) := by
    intro n m
    simp [writeCodeUnit]
  rw [hJoin]
  exact .pair hc (isCodeUnit_hex hHigh) (isCodeUnit_hex hLow)

theorem toNat_le_toNat {x y : Char} (h : x ≤ y) : x.toNat ≤ y.toNat := by
  rwa [Char.le_def, UInt32.le_iff_toNat_le] at h

/-- A character is written as the grammar has it. -/
theorem writes_writeChar (c : Char) : Writes c (writeChar c) := by
  have hLetter : ∀ x y : Char, (x, y) ∈ letterEscapes → c = y → Writes c ['\\', x] := by
    rintro x y hEscape rfl
    exact .letter hEscape
  unfold writeChar
  split_ifs with hQuote hBackslash _ _ _ _ _ hPrintable hShort
  -- seven characters have an escape of one letter
  · exact hLetter '"' '"' (by decide) hQuote
  · exact hLetter '\\' '\\' (by decide) hBackslash
  · exact hLetter 'n' '\n' (by decide) ‹_›
  · exact hLetter 'r' '\r' (by decide) ‹_›
  · exact hLetter 't' '\t' (by decide) ‹_›
  · exact hLetter 'b' '\x08' (by decide) ‹_›
  · exact hLetter 'f' '\x0c' (by decide) ‹_›
  · exact .raw hQuote hBackslash (toNat_le_toNat hPrintable.1)
  · exact .unit (isCodeUnit_hex hShort)
  · have hLimit := toNat_lt c
    exact writes_pair (by omega) (by omega) (by omega)

/-- So a string spells its text. -/
theorem spells_flatMap (d : Dialect) (s : Text) : Spells d s (s.flatMap writeChar) := by
  induction s with
  | nil => exact .nil
  | cons c s ih => exact .char (writes_writeChar c) ih

/-! ## ASCII -/

theorem isAscii_hex (width n : Nat) : (Text.hex width n).IsAscii := by
  intro c hc
  obtain ⟨k, hk, rfl⟩ := Text.exists_hexDigit_of_mem hc
  rw [Text.toNat_hexDigit hk]
  split <;> omega

theorem isAscii_writeCodeUnit (n : Nat) : (writeCodeUnit n).IsAscii :=
  Text.IsAscii.append (by decide) (isAscii_hex 4 n)

theorem isAscii_writeChar (c : Char) : (writeChar c).IsAscii := by
  unfold writeChar
  split_ifs with _ _ _ _ _ _ _ hPrintable
  -- the escapes of one letter
  · decide
  · decide
  · decide
  · decide
  · decide
  · decide
  · decide
  · have hTilde : c.toNat ≤ 0x7E := toNat_le_toNat hPrintable.2
    have hEnd : Text.IsAscii [] := nofun
    exact hEnd.cons (by omega)
  · exact isAscii_writeCodeUnit _
  · exact (isAscii_writeCodeUnit _).append (isAscii_writeCodeUnit _)

theorem isAscii_writeString (t : Text) : (writeString t).IsAscii := by
  have hInner : Text.IsAscii (t.flatMap writeChar) := by
    intro c hc
    obtain ⟨x, -, hc⟩ := List.mem_flatMap.mp hc
    exact isAscii_writeChar x c hc
  exact (hInner.cons (by decide)).append (by decide)

theorem isAscii_ofInt (n : Int) : (Text.ofInt n).IsAscii := by
  have hDigits : ∀ k, (Text.ofNat k).IsAscii := by
    intro k c hc
    have hBounds := Text.toNat_of_isDigit (Text.isDigit_of_mem_ofNat hc)
    omega
  cases n with
  | ofNat k => exact hDigits k
  | negSucc k => exact (hDigits (k + 1)).cons (by decide)

theorem isAscii_newLine (level : Nat) : (newLine level).IsAscii := by
  have hSpaces : Text.IsAscii (List.replicate (2 * level) ' ') := by
    intro c hc
    rw [List.eq_of_mem_replicate hc]
    decide
  exact hSpaces.cons (by decide)

/-- A key with what stands in front of it and the colon behind it. -/
theorem isAscii_key (level : Nat) (key : Text) (hc : c.toNat < 0x80) :
    Text.IsAscii (c :: newLine level ++ writeString key ++ [':', ' ']) :=
  (((isAscii_newLine level).cons hc).append (isAscii_writeString key)).append (by decide)

mutual

theorem isAscii_write (level : Nat) : ∀ v : Json, (write level v).IsAscii
  | null | bool true | bool false | notANumber | infinite true | infinite false | array []
  | object [] => by
    rw [write]
    decide
  | int n => by
    rw [write]
    exact isAscii_ofInt n
  | decimal mantissa exponent => by
    rw [write]
    exact (isAscii_ofInt mantissa).append ((isAscii_ofInt exponent).cons (by decide))
  | string t => by
    rw [write]
    exact isAscii_writeString t
  | array (item :: items) => by
    rw [write]
    have hOpened := (isAscii_newLine (level + 1)).cons (c := '[') (by decide)
    exact (hOpened.append (isAscii_write (level + 1) item)).append (isAscii_writeItems level items)
  | object ((key, item) :: members) => by
    rw [write]
    have hOpened := isAscii_key (level + 1) key (c := '{') (by decide)
    exact (hOpened.append (isAscii_write (level + 1) item)).append
      (isAscii_writeMembers level members)

theorem isAscii_writeItems (level : Nat) : ∀ items : List Json, (writeItems level items).IsAscii
  | [] => by
    rw [writeItems]
    exact (isAscii_newLine level).append (by decide)
  | item :: items => by
    rw [writeItems]
    have hNext := (isAscii_newLine (level + 1)).cons (c := ',') (by decide)
    exact (hNext.append (isAscii_write (level + 1) item)).append (isAscii_writeItems level items)

theorem isAscii_writeMembers (level : Nat) :
    ∀ members : List (Text × Json), (writeMembers level members).IsAscii
  | [] => by
    rw [writeMembers]
    exact (isAscii_newLine level).append (by decide)
  | (key, item) :: members => by
    rw [writeMembers]
    have hNext := isAscii_key (level + 1) key (c := ',') (by decide)
    exact (hNext.append (isAscii_write (level + 1) item)).append
      (isAscii_writeMembers level members)

end

/-- Whatever is in a value, its text is ASCII. -/
theorem isAscii_toText (v : Json) : v.toText.IsAscii := isAscii_write 0 v

/-! ## Numbers -/

/-- An integer is written as a sign and digits. -/
theorem exists_sign_ofInt (n : Int) : ∃ sign s, IsSign sign s ∧
    Text.ofInt n = s ++ Text.ofNat n.natAbs ∧ n = sign * Text.toNat (Text.ofNat n.natAbs) := by
  cases n with
  | ofNat k =>
    refine ⟨1, [], .plus, rfl, ?_⟩
    rw [Text.toNat_ofNat, one_mul]
    rfl
  | negSucc k =>
    refine ⟨-1, ['-'], .minus, rfl, ?_⟩
    rw [Text.toNat_ofNat, Int.natAbs_negSucc, Int.negSucc_eq, neg_one_mul]
    rfl

theorem isWhole_ofNat (n : Nat) : IsWhole (Text.ofNat n) where
  ne_nil := Nat.toDigits_ne_nil
  chars _ hc := Text.isDigit_of_mem_ofNat hc
  no_zero hZero := by
    rw [Text.eq_zero_of_head?_ofNat hZero]
    rfl

theorem isScalar_int {n : Int} (h : Text.Legible n) : IsScalar d (.int n) (Text.ofInt n) := by
  obtain ⟨sign, s, hSign, hText, hValue⟩ := exists_sign_ofInt n
  have hScalar : IsScalar d (.int (sign * Text.toNat (Text.ofNat n.natAbs)))
      (s ++ Text.ofNat n.natAbs) :=
    .integer hSign (isWhole_ofNat _) (Text.length_ofNat_le_iff.mpr h)
  rwa [← hText, ← hValue] at hScalar

/-- A decimal is written with its exponent, and without a fraction. No digit of it is refused. -/
theorem isScalar_decimal (mantissa exponent : Int) : IsScalar d (.decimal mantissa exponent)
    (Text.ofInt mantissa ++ 'e' :: Text.ofInt exponent) := by
  obtain ⟨sign, s, hSign, hText, hValue⟩ := exists_sign_ofInt mantissa
  obtain ⟨sign', s', hSign', hText', hValue'⟩ := exists_sign_ofInt exponent
  have hExponent : IsExponent (sign' * Text.toNat (Text.ofNat exponent.natAbs))
      ('e' :: (s' ++ Text.ofNat exponent.natAbs)) :=
    .digits (Or.inl rfl) (Or.inl hSign') (isWhole_ofNat _).toIsDigits
  have hScalar := IsScalar.decimal (d := d) hSign (isWhole_ofNat mantissa.natAbs) .none hExponent
    (by simp)
  simpa [hText, hText', ← hValue, ← hValue'] using hScalar

/-! ## Values -/

/-- A value that is not lost when it is written: its integers have no more digits than are read. In
the proper dialect, it holds none of the values that JSON proper has no word for. -/
inductive IsLegible (d : Dialect) : Json → Prop
  | null : IsLegible d .null
  | bool (b : Bool) : IsLegible d (.bool b)
  | int {n : Int} : Text.Legible n → IsLegible d (.int n)
  | decimal (mantissa exponent : Int) : IsLegible d (.decimal mantissa exponent)
  | notANumber : d = .extended → IsLegible d .notANumber
  | infinite (negative : Bool) : d = .extended → IsLegible d (.infinite negative)
  | string (t : Text) : IsLegible d (.string t)
  | array {items : List Json} : (∀ v ∈ items, IsLegible d v) → IsLegible d (.array items)
  | object {members : List (Text × Json)} : (∀ m ∈ members, IsLegible d m.2) →
    IsLegible d (.object members)

theorem isSpaces_nil : IsSpaces [] := nofun

theorem isSpaces_newLine (level : Nat) : IsSpaces (newLine level) := by
  refine List.forall_mem_cons.mpr ⟨by decide, ?_⟩
  intro c hc
  rw [List.eq_of_mem_replicate hc]
  decide

section
variable {level : Nat}

/-- The items behind one that stands for a value are items, if each of them stands for its own. -/
theorem isItems_writeItems {items : List Json}
    (h : ∀ v ∈ items, IsValue d v (write (level + 1) v)) (hv : IsValue d v t) :
    IsItems d (v :: items) (t ++ writeItems level items) := by
  induction items generalizing v t with
  | nil =>
    rw [writeItems]
    exact .last hv (isSpaces_newLine level)
  | cons item items ih =>
    rw [List.forall_mem_cons] at h
    have hRest := IsItems.more hv isSpaces_nil (isSpaces_newLine (level + 1)) (ih h.2 h.1)
    rw [writeItems]
    simpa using hRest

theorem isMember_write (key : Text) (hv : IsValue d v (write (level + 1) v)) :
    IsMember d (key, v) (writeString key ++ [':', ' '] ++ write (level + 1) v) := by
  have hSpace : IsSpaces [' '] := by decide
  have hMember := IsMember.member (spells_flatMap d key) isSpaces_nil hSpace hv
  simpa [writeString] using hMember

theorem isMembers_writeMembers {members : List (Text × Json)} {m : Text × Json}
    (h : ∀ m ∈ members, IsValue d m.2 (write (level + 1) m.2)) (hm : IsMember d m t) :
    IsMembers d (m :: members) (t ++ writeMembers level members) := by
  induction members generalizing m t with
  | nil =>
    rw [writeMembers]
    exact .last hm (isSpaces_newLine level)
  | cons member members ih =>
    obtain ⟨key, item⟩ := member
    rw [List.forall_mem_cons] at h
    have hRest := IsMembers.more hm isSpaces_nil (isSpaces_newLine (level + 1))
      (ih h.2 (isMember_write key h.1))
    rw [writeMembers]
    simpa using hRest

end

/-- What is written stands for the value, at any level. -/
theorem isValue_write (h : IsLegible d v) (level : Nat) : IsValue d v (write level v) := by
  induction h generalizing level with
  | null =>
    rw [write]
    exact .scalar .null
  | bool b =>
    cases b with
    | true =>
      rw [write]
      exact .scalar .true
    | false =>
      rw [write]
      exact .scalar .false
  | int hLegible =>
    rw [write]
    exact .scalar (isScalar_int hLegible)
  | decimal mantissa exponent =>
    rw [write]
    exact .scalar (isScalar_decimal mantissa exponent)
  | notANumber hd =>
    rw [write]
    exact .scalar (.notANumber hd)
  | infinite negative hd =>
    cases negative with
    | true =>
      rw [write]
      exact .scalar (.minusInfinite hd)
    | false =>
      rw [write]
      exact .scalar (.infinite hd)
  | string t =>
    rw [write]
    exact .string (spells_flatMap d t)
  | @array items _ ih =>
    cases items with
    | nil =>
      rw [write]
      exact .noItems isSpaces_nil
    | cons item items =>
      rw [List.forall_mem_cons] at ih
      -- the writer treats the first item apart, and so does the grammar the last one
      have hItems := isItems_writeItems (fun v hv => ih.2 v hv (level + 1)) (ih.1 (level + 1))
      rw [write]
      simpa using IsValue.items (isSpaces_newLine (level + 1)) hItems
  | @object members _ ih =>
    cases members with
    | nil =>
      rw [write]
      exact .noMembers isSpaces_nil
    | cons member members =>
      obtain ⟨key, item⟩ := member
      rw [List.forall_mem_cons] at ih
      have hMembers := isMembers_writeMembers (fun m hm => ih.2 m hm (level + 1))
        (isMember_write key (ih.1 (level + 1)))
      rw [write]
      simpa using IsValue.members (isSpaces_newLine (level + 1)) hMembers

theorem isDocument_toText (h : IsLegible d v) : IsDocument d v v.toText :=
  ⟨[], v.toText, [], nofun, isValue_write h 0, nofun, by simp⟩

/-- What is written is read back. -/
theorem read_toText (h : IsLegible d v) : read v.toText = .ok v :=
  read_of_isDocument (isDocument_toText h)

end Json

end FieldHint
