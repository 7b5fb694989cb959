import Mathlib
import FieldHint.Cursor.Context
import FieldHint.Text.Lines
import FieldHint.Text.Word

/-!
# Text — classes of characters

The readers cut a text where the class of the characters changes: blanks part the words of a
header, word characters make up names, identifier characters make up the name in front of a
literal. That a cut has one place only rests on the classes being apart:

* `isWord_of_isBlank` — no blank is a word character;
* `isBlank_of_isIdentifierChar` — no identifier character is a blank.

Both come from the bounds of the ASCII classes and from comparing the tables range by range.
-/

namespace FieldHint.Text

variable {c : Char}

/-! ## Bounds -/

theorem toNat_of_isAlphanum (h : c.isAlphanum = true) : 0x30 ≤ c.toNat ∧ c.toNat ≤ 0x7A := by
  simp only [Char.isAlphanum, Char.isAlpha, Char.isUpper, Char.isLower, Char.isDigit,
    Bool.or_eq_true, Bool.and_eq_true, decide_eq_true_eq, UInt32.le_iff_toNat_le, ge_iff_le] at h
  change ((65 ≤ c.toNat ∧ c.toNat ≤ 90) ∨ (97 ≤ c.toNat ∧ c.toNat ≤ 122)) ∨
    (48 ≤ c.toNat ∧ c.toNat ≤ 57) at h
  omega

theorem toNat_of_isBlank (h : isBlank c = true) : c.toNat ≤ 0x20 ∨ 0x85 ≤ c.toNat := by
  simp only [isBlank, CharRanges.covers, blankRanges, List.any_cons, List.any_nil,
    Bool.or_eq_true, Bool.and_eq_true, decide_eq_true_eq, Bool.false_eq_true, or_false] at h
  omega

/-- Tables without a common code point cover no common character. -/
theorem covers_eq_false_of_apart {a b : CharRanges}
    (hApart : ∀ r ∈ a, ∀ s ∈ b, r.2 < s.1 ∨ s.2 < r.1) (h : a.covers c = true) :
    b.covers c = false := by
  rw [CharRanges.covers, List.any_eq_true] at h
  obtain ⟨r, hr, hrc⟩ := h
  simp only [Bool.and_eq_true, decide_eq_true_eq] at hrc
  rw [CharRanges.covers, List.any_eq_false]
  intro s hs
  simp only [Bool.and_eq_true, decide_eq_true_eq, not_and]
  have := hApart r hr s hs
  omega

/-! ## Classes apart -/

theorem isWord_of_isBlank (h : isBlank c = true) : isWord c = false := by
  -- the letters of other scripts are in a table, those of ASCII are not
  have hTable : wordRanges.covers c = false :=
    covers_eq_false_of_apart (a := blankRanges) (by decide +kernel) h
  have hBounds := toNat_of_isBlank h
  have hUnderscore : c ≠ '_' := by
    rintro rfl
    revert hBounds
    decide
  have hAlphanum : c.isAlphanum = false := by
    by_contra hc
    have := toNat_of_isAlphanum (Bool.eq_true_of_not_eq_false hc)
    omega
  simp [isWord, hTable, hUnderscore, hAlphanum]

theorem isBlank_of_isWord (h : isWord c = true) : isBlank c = false := by
  by_contra hc
  rw [isWord_of_isBlank (Bool.eq_true_of_not_eq_false hc)] at h
  exact Bool.false_ne_true h

theorem isWord_of_isIdentifierChar (h : Cursor.isIdentifierChar c = true) : isWord c = true := by
  simp only [Cursor.isIdentifierChar, Bool.or_eq_true, decide_eq_true_eq] at h
  rcases h with h | h <;> simp [isWord, h]

theorem isBlank_of_isIdentifierChar (h : Cursor.isIdentifierChar c = true) : isBlank c = false :=
  isBlank_of_isWord (isWord_of_isIdentifierChar h)

theorem isBlank_of_isSpacing (h : isSpacing c = true) : isBlank c = true := by
  simp only [isSpacing, Bool.or_eq_true, decide_eq_true_eq] at h
  rcases h with rfl | rfl <;> decide

/-- What ends a line is a blank. -/
theorem isBlank_of_isBreak (h : isBreak c = true) : isBlank c = true := by
  simp only [isBreak, Bool.or_eq_true, Bool.and_eq_true, decide_eq_true_eq] at h
  simp only [isBlank, CharRanges.covers, blankRanges, List.any_cons, List.any_nil, Bool.or_eq_true,
    Bool.and_eq_true, decide_eq_true_eq]
  omega

theorem isSpacing_space : ∀ c ∈ ([' '] : Text), isSpacing c = true :=
  List.forall_mem_singleton.mpr (by decide)

theorem isBlank_space : ∀ c ∈ ([' '] : Text), isBlank c = true :=
  fun c hc => isBlank_of_isSpacing (isSpacing_space c hc)

/-- A run of characters of a class holds no character outside the class. -/
theorem not_mem_of_class {p : Char → Bool} {t : Text} (h : ∀ x ∈ t, p x = true)
    (hc : p c = false) : c ∉ t := by
  intro hmem
  rw [h c hmem] at hc
  exact Bool.false_ne_true hc.symm

/-! ## Names -/

/-- A name is a run of word characters. -/
structure IsName (t : Text) : Prop where
  ne_nil : t ≠ []
  chars : ∀ c ∈ t, isWord c = true

/-- The run is looked through as a list; there are too many characters to look through those. -/
instance (t : Text) : Decidable (IsName t) :=
  decidable_of_iff (t ≠ [] ∧ t.all isWord = true)
    ⟨fun h => ⟨h.1, List.all_eq_true.mp h.2⟩, fun h => ⟨h.ne_nil, List.all_eq_true.mpr h.chars⟩⟩

theorem IsName.not_mem {t : Text} (h : IsName t) (hc : isWord c = false) : c ∉ t :=
  not_mem_of_class h.chars hc

theorem IsName.head_solid {t : Text} (h : IsName t) : ∀ c ∈ t.head?, isBlank c = false :=
  fun c hc => isBlank_of_isWord (h.chars c (List.mem_of_mem_head? hc))

end FieldHint.Text
