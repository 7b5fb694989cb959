import Mathlib
import FieldHint.Text.Utf8

/-!
# Text — what was written as text is read as text

* `decode_utf8` — the bytes of a text are read as that text;
* `unixLines_append` — line breaks on either side of a place where no break can be cut in two.
-/

namespace FieldHint.Text

variable {c : Char} {t u : Text} {b : UInt8} {bs : Bytes}

/-! ## Bytes -/

/-- The bytes of a text. -/
def utf8 (t : Text) : Bytes := t.flatMap String.utf8EncodeChar

namespace Utf8

section

variable {n bits further start : Nat} {low high : UInt8} {seen : Bytes} {l : Lead}

/-- The last byte of a character. -/
theorem decodeFrom_last (hb : low ≤ b ∧ b ≤ high) (bs : Bytes) :
    decodeFrom n (.inside bits low high 0 start seen) (b :: bs) =
      (decodeFrom (n + 1) .between bs).map (Char.ofNat (bits * 64 + (b.toNat - 0x80)) :: ·) := by
  rw [decodeFrom, if_pos hb]

/-- A byte in the middle of a character. -/
theorem decodeFrom_middle (hb : low ≤ b ∧ b ≤ high) (bs : Bytes) :
    decodeFrom n (.inside bits low high (further + 1) start seen) (b :: bs) =
      decodeFrom (n + 1)
        (.inside (bits * 64 + (b.toNat - 0x80)) 0x80 0xBF further start (b :: seen)) bs := by
  rw [decodeFrom, if_pos hb]

theorem lead?_ascii (hb : b < 0x80) : lead? b = none := by
  have hNat : b.toNat < 0x80 := UInt8.lt_iff_toNat_lt.mp hb
  have hApart : ∀ x : UInt8, 0x80 ≤ x.toNat → ¬ x ≤ b := by
    intro x hx hxb
    have := UInt8.le_iff_toNat_le.mp hxb
    omega
  have hNe : ∀ x : UInt8, 0x80 ≤ x.toNat → ¬ b = x := by
    rintro _ hx rfl
    omega
  simp [lead?, hApart, hNe]

theorem decodeFrom_lead (hb : lead? b = some l) (bs : Bytes) :
    decodeFrom n .between (b :: bs) =
      decodeFrom (n + 1) (.inside l.bits l.low l.high l.further n [b]) bs := by
  have hLarge : ¬ b < 0x80 := by
    intro hSmall
    rw [lead?_ascii hSmall] at hb
    cases hb
  rw [decodeFrom, if_neg hLarge, hb]

end

theorem lead?_two {k : Nat} (hLow : 2 ≤ k) (hHigh : k < 0x20) :
    lead? (UInt8.ofNat (k + 0xC0)) = some ⟨k, 0x80, 0xBF, 0⟩ := by
  interval_cases k <;> rfl

theorem lead?_three {k : Nat} (hHigh : k < 0x10) :
    lead? (UInt8.ofNat (k + 0xE0)) =
      some ⟨k, if k = 0 then 0xA0 else 0x80, if k = 0xD then 0x9F else 0xBF, 1⟩ := by
  interval_cases k <;> rfl

theorem lead?_four {k : Nat} (hHigh : k < 5) :
    lead? (UInt8.ofNat (k + 0xF0)) =
      some ⟨k, if k = 0 then 0x90 else 0x80, if k = 4 then 0x8F else 0xBF, 2⟩ := by
  interval_cases k <;> rfl

theorem toNat_tail (k : Nat) : (UInt8.ofNat (k % 0x40 + 0x80)).toNat = k % 0x40 + 0x80 := by
  rw [UInt8.toNat_ofNat']
  omega

/-- A byte behind the first holds six bits. Its range may be narrower than that. -/
theorem isTail {low high : UInt8} {k : Nat} (hLow : low.toNat ≤ k % 0x40 + 0x80)
    (hHigh : k % 0x40 + 0x80 ≤ high.toNat) :
    low ≤ UInt8.ofNat (k % 0x40 + 0x80) ∧ UInt8.ofNat (k % 0x40 + 0x80) ≤ high := by
  rw [UInt8.le_iff_toNat_le, UInt8.le_iff_toNat_le, toNat_tail]
  exact ⟨hLow, hHigh⟩

theorem isTail_full (k : Nat) :
    (0x80 : UInt8) ≤ UInt8.ofNat (k % 0x40 + 0x80) ∧ UInt8.ofNat (k % 0x40 + 0x80) ≤ 0xBF :=
  isTail (Nat.le_add_left 0x80 _) (by change _ ≤ 0xBF; omega)

/-- The bytes of a character are read as that character. -/
theorem decodeFrom_utf8EncodeChar (n : Nat) (c : Char) (bs : Bytes) :
    decodeFrom n .between (String.utf8EncodeChar c ++ bs) =
      (decodeFrom (n + (String.utf8EncodeChar c).length) .between bs).map (c :: ·) := by
  have hValid : c.toNat.isValidChar := c.valid
  have hChar : ∀ k, k = c.toNat → Char.ofNat k = c := by
    rintro k rfl
    exact Char.ofNat_toNat c
  unfold Nat.isValidChar at hValid
  unfold String.utf8EncodeChar
  dsimp only
  rw [Char.toNat_val]
  split_ifs with hOne hTwo hThree
  · have hByte : (UInt8.ofNat c.toNat).toNat = c.toNat := by
      rw [UInt8.toNat_ofNat']
      omega
    have hAscii : UInt8.ofNat c.toNat < 0x80 := by
      rw [UInt8.lt_iff_toNat_lt, hByte]
      change _ < 0x80
      omega
    rw [List.singleton_append, decodeFrom, if_pos hAscii, hByte, hChar _ rfl]
    rfl
  · have hLead := lead?_two (k := c.toNat / 64 % 0x20) (by omega) (by omega)
    simp only [List.cons_append, List.nil_append]
    rw [decodeFrom_lead hLead, decodeFrom_last (isTail_full _), toNat_tail,
      hChar _ (by dsimp only; omega)]
    rfl
  · have hLead := lead?_three (k := c.toNat / 4096 % 0x10) (by omega)
    have hSecond : (if c.toNat / 4096 % 0x10 = 0 then 0xA0 else 0x80 : UInt8).toNat ≤
          c.toNat / 64 % 0x40 + 0x80 ∧
        c.toNat / 64 % 0x40 + 0x80 ≤
          (if c.toNat / 4096 % 0x10 = 0xD then 0x9F else 0xBF : UInt8).toNat := by
      split_ifs <;> simp <;> omega
    simp only [List.cons_append, List.nil_append]
    rw [decodeFrom_lead hLead, decodeFrom_middle (isTail hSecond.1 hSecond.2),
      decodeFrom_last (isTail_full _), toNat_tail, toNat_tail, hChar _ (by dsimp only; omega)]
    rfl
  · have hLead := lead?_four (k := c.toNat / 262144 % 0x08) (by omega)
    have hSecond : (if c.toNat / 262144 % 0x08 = 0 then 0x90 else 0x80 : UInt8).toNat ≤
          c.toNat / 4096 % 0x40 + 0x80 ∧
        c.toNat / 4096 % 0x40 + 0x80 ≤
          (if c.toNat / 262144 % 0x08 = 4 then 0x8F else 0xBF : UInt8).toNat := by
      split_ifs <;> simp <;> omega
    simp only [List.cons_append, List.nil_append]
    rw [decodeFrom_lead hLead, decodeFrom_middle (isTail hSecond.1 hSecond.2),
      decodeFrom_middle (isTail_full _), decodeFrom_last (isTail_full _), toNat_tail, toNat_tail,
      toNat_tail, hChar _ (by dsimp only; omega)]
    rfl

theorem decodeFrom_utf8 (t : Text) (n : Nat) : decodeFrom n .between (utf8 t) = .ok t := by
  induction t generalizing n with
  | nil => rfl
  | cons c t ih =>
    rw [utf8, List.flatMap_cons, decodeFrom_utf8EncodeChar, ← utf8, ih]
    rfl

/-- The bytes of a text are read as that text. -/
theorem decode_utf8 (t : Text) : decode (utf8 t) = .ok t := decodeFrom_utf8 t 0

end Utf8

/-! ## Line breaks -/

theorem unixLines_cons (hc : c ≠ '\r') (t : Text) : unixLines (c :: t) = c :: unixLines t := by
  rw [unixLines, if_neg hc]
  rintro u rfl
  exact absurd rfl hc

/-- A break that is cut in two would count twice. -/
theorem unixLines_append (hu : u.head? ≠ some '\n') (t : Text) :
    unixLines (t ++ u) = unixLines t ++ unixLines u := by
  induction t using unixLines.induct with
  | case1 => rfl
  | case2 t ih => rw [List.cons_append, List.cons_append, unixLines, unixLines, ih]; rfl
  | case3 c t hNot ih =>
    rw [List.cons_append, unixLines, unixLines, ih]
    · rfl
    · exact hNot
    -- the line feed would be in the first part, or start the second
    · rintro w rfl hFeed
      cases t with
      | nil => exact hu (by rw [List.nil_append] at hFeed; rw [hFeed]; rfl)
      | cons d t => exact hNot t rfl (by rw [(List.cons.inj hFeed).1])

theorem unixLines_append_of_not_mem (ht : '\r' ∉ t) (u : Text) :
    unixLines (t ++ u) = t ++ unixLines u := by
  induction t with
  | nil => rfl
  | cons c t ih =>
    rw [List.mem_cons, not_or] at ht
    rw [List.cons_append, unixLines_cons (Ne.symm ht.1), ih ht.2]
    rfl

/-- No character is new but the line feed. -/
theorem mem_unixLines (hc : c ∈ unixLines t) : c ∈ t ∨ c = '\n' := by
  induction t using unixLines.induct with
  | case1 => exact Or.inl hc
  | case2 t ih =>
    rw [unixLines, List.mem_cons] at hc
    refine hc.elim Or.inr fun hc => (ih hc).imp_left fun hMem => ?_
    exact List.mem_cons_of_mem _ (List.mem_cons_of_mem _ hMem)
  | case3 d t hNot ih =>
    rw [unixLines, List.mem_cons] at hc
    · rcases hc with hc | hc
      · split at hc
        · exact Or.inr hc
        · exact Or.inl (hc ▸ List.mem_cons_self)
      · exact (ih hc).imp_left (List.mem_cons_of_mem d)
    · exact hNot

end FieldHint.Text
