import FieldHint.Proofs.Text.Cut
import FieldHint.Text.Hex

/-!
# Text — hexadecimal numbers read back

* `hexNumber?_eq_some_iff` — what is read as a number are its digits, each in either case.
-/

namespace FieldHint.Text

variable {c : Char} {k n : Nat} {t : Text}

theorem toNat_toLower (c : Char) :
    c.toLower.toNat = if 0x41 ≤ c.toNat ∧ c.toNat ≤ 0x5A then c.toNat + 0x20 else c.toNat := by
  have hUpper : c.val ≥ 'A'.val ∧ c.val ≤ 'Z'.val ↔ 0x41 ≤ c.toNat ∧ c.toNat ≤ 0x5A := by
    simp only [ge_iff_le, UInt32.le_iff_toNat_le]
    rfl
  unfold Char.toLower
  split
  · next h =>
    have hBounds := hUpper.mp h
    have hShift : ('a'.val - 'A'.val).toNat = 0x20 := by decide
    rw [if_pos hBounds, Char.toNat_mk, UInt32.toNat_add, hShift, Char.toNat_val]
    omega
  · next h => rw [if_neg fun hBounds => h (hUpper.mpr hBounds)]

theorem toNat_hexDigit (hk : k < 16) :
    (hexDigit k).toNat = if k < 10 then 0x30 + k else 0x57 + k := by
  unfold hexDigit
  split <;> rw [Char.toNat_ofNat, if_pos] <;> unfold Nat.isValidChar <;> omega

/-- The value of a hexadecimal digit by the bounds of its class. -/
theorem hexValue?_eq (c : Char) :
    hexValue? c =
      if 0x30 ≤ c.toNat ∧ c.toNat ≤ 0x39 then some (c.toNat - 0x30)
      else if 0x61 ≤ c.toNat ∧ c.toNat ≤ 0x66 then some (c.toNat - 0x57)
      else if 0x41 ≤ c.toNat ∧ c.toNat ≤ 0x46 then some (c.toNat - 0x37)
      else none := by
  simp only [hexValue?, Char.le_def, UInt32.le_iff_toNat_le, Char.toNat_val]
  rfl

theorem hexValue?_eq_some_iff : hexValue? c = some k ↔ k < 16 ∧ c.toLower = hexDigit k := by
  have hDigit : k < 16 → (c.toLower = hexDigit k ↔
      (if 0x41 ≤ c.toNat ∧ c.toNat ≤ 0x5A then c.toNat + 0x20 else c.toNat) =
        if k < 10 then 0x30 + k else 0x57 + k) := by
    intro hk
    rw [← Char.toNat_inj, toNat_toLower, toNat_hexDigit hk]
  rw [hexValue?_eq, and_congr_right hDigit]
  -- four classes on the left, two on the right
  split_ifs <;> simp only [Option.some_inj, false_iff] <;> omega

/-! ## Numbers -/

theorem exists_hexDigit_of_mem {width : Nat} (hc : c ∈ hex width n) :
    ∃ k < 16, c = hexDigit k := by
  induction width generalizing n with
  | zero => cases hc
  | succ width ih =>
    rw [hex, List.mem_append, List.mem_singleton] at hc
    exact hc.elim ih fun hc => ⟨n % 16, by omega, hc⟩

theorem hexNumber?_append_singleton (t : Text) (c : Char) :
    hexNumber? (t ++ [c]) = (hexNumber? t).bind fun n => (hexValue? c).map (16 * n + ·) := by
  rw [hexNumber?, List.foldlM_append]
  simp [hexNumber?]

/-- What is read as a number are the digits of that number, each in either case. -/
theorem hexNumber?_eq_some_iff :
    hexNumber? t = some n ↔ n < 16 ^ t.length ∧ t.map Char.toLower = hex t.length n := by
  induction t using List.reverseRecOn generalizing n with
  | nil => simp [hexNumber?, hex, eq_comm]
  | append_singleton t c ih =>
    simp only [hexNumber?_append_singleton, Option.bind_eq_some_iff, Option.map_eq_some_iff, ih,
      hexValue?_eq_some_iff, List.length_append, List.length_singleton, List.map_append,
      List.map_singleton, hex, pow_succ]
    constructor
    · rintro ⟨high, ⟨hHigh, hDigits⟩, low, ⟨hLow, hLast⟩, rfl⟩
      have hDiv : (16 * high + low) / 16 = high := by omega
      have hMod : (16 * high + low) % 16 = low := by omega
      rw [hDiv, hMod, hDigits, hLast]
      exact ⟨by omega, rfl⟩
    · rintro ⟨hn, h⟩
      obtain ⟨hDigits, hLast⟩ := List.append_inj' h rfl
      exact ⟨n / 16, ⟨by omega, hDigits⟩, n % 16, ⟨by omega, List.singleton_inj.mp hLast⟩, by omega⟩

end FieldHint.Text
