import FieldHint.Proofs.Text.Cut
import FieldHint.Text.Integer

/-!
# Text — integers read back

An integer is written in the ten digits of ASCII. Whoever reads it looks for a sign and for digits,
and both are found again; only a number that is too long is refused.

* `toInt?_ofInt` — an integer is read as itself, as long as it is legible.
-/

namespace FieldHint.Text

variable {t digits : Text} {c : Char}

/-- An integer with no more digits than are read. -/
def Legible (n : Int) : Prop := n.natAbs < 10 ^ maxDigits

instance (n : Int) : Decidable (Legible n) :=
  inferInstanceAs (Decidable (n.natAbs < 10 ^ maxDigits))

theorem legible_of_lt_pow {n : Int} {k : Nat} (h : n.natAbs < 10 ^ k) (hk : k ≤ maxDigits) :
    Legible n :=
  h.trans_le (Nat.pow_le_pow_right (by decide) hk)

/-- What is smaller than a legible number is legible, too. -/
theorem Legible.of_le {m n : Nat} (h : Legible n) (hmn : m ≤ n) : Legible m :=
  hmn.trans_lt h

/-! ## Characters of a number -/

theorem toNat_of_isDigit (h : c.isDigit = true) : 0x30 ≤ c.toNat ∧ c.toNat ≤ 0x39 := by
  simp only [Char.isDigit, Bool.and_eq_true, decide_eq_true_eq, UInt32.le_iff_toNat_le,
    ge_iff_le] at h
  exact h

/-- A character that is read as itself and is no blank: digits and signs are. -/
def IsSolid (c : Char) : Prop := asciiNumeral? c = some c ∧ isNumeralBlank c = false

theorem isSolid_of_isDigit (h : c.isDigit = true) : IsSolid c := by
  have hBounds := toNat_of_isDigit h
  have hSpace : c ≠ ' ' := by
    rintro rfl
    revert hBounds
    decide
  constructor
  · rw [asciiNumeral?, if_pos (by omega)]
  · simp only [isNumeralBlank, hSpace, decide_false, Bool.false_or, Bool.and_eq_false_iff,
      decide_eq_false_iff_not]
    omega

/-! ## Reading -/

theorem mapM_asciiNumeral? (h : ∀ c ∈ t, IsSolid c) : t.mapM asciiNumeral? = some t := by
  induction t with
  | nil => rfl
  | cons c t ih =>
    rw [List.forall_mem_cons] at h
    rw [List.mapM_cons, h.1.1, ih h.2]
    rfl

/-- Nothing is stripped from solid characters. -/
theorem strip_solid (h : ∀ c ∈ t, IsSolid c) :
    dropWhileEnd isNumeralBlank (t.dropWhile isNumeralBlank) = t := by
  have hStart : t.dropWhile isNumeralBlank = t :=
    dropWhile_eq_self fun c hc => (h c (List.mem_of_mem_head? hc)).2
  have hEnd : t.reverse.dropWhile isNumeralBlank = t.reverse :=
    dropWhile_eq_self fun c hc => (h c (List.mem_reverse.mp (List.mem_of_mem_head? hc))).2
  rw [hStart, dropWhileEnd, hEnd, List.reverse_reverse]

theorem numeralDigits?_of_isDigit (hne : digits ≠ []) (h : ∀ c ∈ digits, c.isDigit = true) :
    numeralDigits? digits = some digits := by
  induction digits with
  | nil => exact absurd rfl hne
  | cons c t ih =>
    rw [List.forall_mem_cons] at h
    cases t with
    | nil => rw [numeralDigits?, if_pos h.1]
    | cons d t =>
      -- an underscore is no digit
      have hUnderscore : d ≠ '_' := by
        rintro rfl
        exact absurd (h.2 '_' List.mem_cons_self) (by decide)
      rw [numeralDigits?, if_pos h.1, ih (List.cons_ne_nil d t) h.2]
      · rfl
      · simp
      · simpa using hUnderscore

/-- A sign and digits are read as the number they write. -/
theorem toInt?_of_signed {sign : Int} (hSolid : ∀ c ∈ t, IsSolid c)
    (hSigned : signed t = (sign, digits)) (hne : digits ≠ [])
    (hDigits : ∀ c ∈ digits, c.isDigit = true) :
    toInt? t = if maxDigits < digits.length then none else some (sign * toNat digits) := by
  rw [toInt?, mapM_asciiNumeral? hSolid]
  simp only [Option.bind_eq_bind, Option.bind_some, strip_solid hSolid, hSigned,
    numeralDigits?_of_isDigit hne hDigits]
  rfl

/-! ## What is written -/

theorem isDigit_of_mem_ofNat {n : Nat} (hc : c ∈ ofNat n) : c.isDigit = true :=
  Nat.isDigit_of_mem_toDigits (by decide) (by decide) hc

/-- No number but zero is written with a zero in front. -/
theorem eq_zero_of_head?_ofNat {n : Nat} (h : (ofNat n).head? = some '0') : n = 0 := by
  induction n using Nat.strong_induction_on with
  | _ n ih =>
    rw [ofNat, Nat.toDigits_eq_if (by decide)] at h
    split at h
    · next hOne =>
      have hDigit : ∀ k < 10, k.digitChar = '0' → k = 0 := by decide
      exact hDigit n hOne (Option.some.inj h)
    · next hMore =>
      rw [List.head?_append_of_ne_nil _ Nat.toDigits_ne_nil] at h
      have hHigh := ih (n / 10) (by omega) h
      omega

theorem toNat_ofNat (n : Nat) : toNat (ofNat n) = n :=
  Nat.ofDigitChars_toDigits (by decide) (by decide)

theorem signed_ofNat (n : Nat) : signed (ofNat n) = (1, ofNat n) := by
  have hMinus : '-' ∉ ofNat n := fun h => absurd (isDigit_of_mem_ofNat h) (by decide)
  have hPlus : '+' ∉ ofNat n := fun h => absurd (isDigit_of_mem_ofNat h) (by decide)
  unfold signed
  split
  · next h => exact absurd (h ▸ List.mem_cons_self) hMinus
  · next h => exact absurd (h ▸ List.mem_cons_self) hPlus
  · rfl

theorem length_ofNat_le_iff {n : Nat} : (ofNat n).length ≤ maxDigits ↔ n < 10 ^ maxDigits :=
  Nat.length_toDigits_le_iff (by decide) (by decide)

/-- An integer is read back as itself, unless it is too long. -/
theorem toInt?_ofInt (n : Int) : toInt? (ofInt n) = if Legible n then some n else none := by
  have hSolid : ∀ n, ∀ c ∈ ofNat n, IsSolid c :=
    fun n c hc => isSolid_of_isDigit (isDigit_of_mem_ofNat hc)
  -- a negative number is written with a sign, which does not count as a digit
  cases n with
  | ofNat n =>
    have hLong : maxDigits < (ofNat n).length ↔ ¬ Legible (Int.ofNat n) := by
      rw [← not_le, length_ofNat_le_iff]
      rfl
    rw [ofInt, toInt?_of_signed (hSolid n) (signed_ofNat n) Nat.toDigits_ne_nil
      fun c hc => isDigit_of_mem_ofNat hc]
    simp only [hLong, toNat_ofNat, one_mul, ite_not]
    rfl
  | negSucc n =>
    have hLong : maxDigits < (ofNat (n + 1)).length ↔ ¬ Legible (Int.negSucc n) := by
      rw [← not_le, length_ofNat_le_iff]
      rfl
    have hSign : ∀ c ∈ '-' :: ofNat (n + 1), IsSolid c :=
      List.forall_mem_cons.mpr ⟨⟨by decide, by decide⟩, hSolid (n + 1)⟩
    have hSigned : signed ('-' :: ofNat (n + 1)) = (-1, ofNat (n + 1)) := rfl
    rw [ofInt, toInt?_of_signed hSign hSigned Nat.toDigits_ne_nil
      fun c hc => isDigit_of_mem_ofNat hc]
    simp only [hLong, toNat_ofNat, ite_not, neg_one_mul]
    rfl

end FieldHint.Text
