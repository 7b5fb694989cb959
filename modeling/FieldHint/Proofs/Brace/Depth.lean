import FieldHint.Proofs.Text.Cut

/-!
# Braces — depth

The depth of a text is the number of braces that it opens, less the number that it closes, every
brace counted, also one in a string or a comment. `Balanced` says that a text closes exactly the
braces it opens, and none before it is open. The scans of this library count braces in one way or
another; on text whose strings and comments hold no brace they all count this depth.
-/

namespace FieldHint.Brace

/-- How a character changes the depth where every brace counts. -/
def weight (c : Char) : Int := if c = '{' then 1 else if c = '}' then -1 else 0

/-- Braces opened less braces closed. -/
def depth (t : Text) : Int := (t.map weight).sum

variable {t u : Text} {c : Char}

@[simp] theorem weight_open : weight '{' = 1 := rfl

@[simp] theorem weight_close : weight '}' = -1 := rfl

theorem weight_of_ne (hOpen : c ≠ '{') (hClose : c ≠ '}') : weight c = 0 := by
  rw [weight, if_neg hOpen, if_neg hClose]

@[simp] theorem depth_nil : depth [] = 0 := rfl

@[simp] theorem depth_cons (c : Char) (t : Text) : depth (c :: t) = weight c + depth t := by
  simp [depth]

@[simp] theorem depth_append (t u : Text) : depth (t ++ u) = depth t + depth u := by
  simp [depth]

theorem depth_of_not_mem (hOpen : '{' ∉ t) (hClose : '}' ∉ t) : depth t = 0 := by
  induction t with
  | nil => rfl
  | cons c t ih =>
    rw [List.mem_cons, not_or] at hOpen hClose
    rw [depth_cons, weight_of_ne (Ne.symm hOpen.1) (Ne.symm hClose.1), ih hOpen.2 hClose.2,
      add_zero]

/-- A text that closes exactly the braces it opens, none before it is open. -/
structure Balanced (t : Text) : Prop where
  /-- Along the way, no brace is closed that is not open. -/
  nonneg : ∀ p, p <+: t → 0 ≤ depth p
  /-- At the end, no brace is open. -/
  total : depth t = 0

theorem balanced_iff : Balanced t ↔ (∀ p ∈ t.inits, 0 ≤ depth p) ∧ depth t = 0 := by
  simp only [List.mem_inits]
  exact ⟨fun h => ⟨h.nonneg, h.total⟩, fun h => ⟨h.1, h.2⟩⟩

instance : Decidable (Balanced t) := decidable_of_iff _ balanced_iff.symm

namespace Balanced

theorem of_not_mem (hOpen : '{' ∉ t) (hClose : '}' ∉ t) : Balanced t where
  nonneg _ hp :=
    (depth_of_not_mem (fun h => hOpen (hp.subset h)) fun h => hClose (hp.subset h)).ge
  total := depth_of_not_mem hOpen hClose

theorem nil : Balanced [] := of_not_mem (by simp) (by simp)

theorem append (ht : Balanced t) (hu : Balanced u) : Balanced (t ++ u) where
  nonneg p hp := by
    -- the prefix ends in the first text, or takes all of it, which adds nothing
    rcases Text.prefix_append_cases hp with hp | ⟨s, rfl, hs⟩
    · exact ht.nonneg p hp
    · have := hu.nonneg s hs
      rw [depth_append, ht.total]
      omega
  total := by rw [depth_append, ht.total, hu.total, add_zero]

theorem cons (hOpen : c ≠ '{') (hClose : c ≠ '}') (ht : Balanced t) : Balanced (c :: t) :=
  append (t := [c]) (of_not_mem (by simpa using hOpen.symm) (by simpa using hClose.symm)) ht

/-- Braces around a balanced text. -/
theorem braced (ht : Balanced t) : Balanced ('{' :: t ++ ['}']) where
  nonneg p hp := by
    rcases Text.prefix_append_cases hp with hp | ⟨s, rfl, hs⟩
    · rcases List.prefix_cons_iff.mp hp with rfl | ⟨q, rfl, hq⟩
      · simp
      · have := ht.nonneg q hq
        rw [depth_cons, weight_open]
        omega
    · rcases List.prefix_cons_iff.mp hs with rfl | ⟨q, rfl, hq⟩
      · simp [ht.total]
      · rw [List.prefix_nil.mp hq]
        simp [ht.total]
  total := by simp [ht.total]

/-- Balanced text may take the place of balanced text. -/
theorem replace {s s' : Text} (h : Balanced (t ++ s ++ u)) (hs : Balanced s)
    (hs' : Balanced s') : Balanced (t ++ s' ++ u) where
  nonneg p hp := by
    -- behind the new text, the depth is that behind the old one
    rcases Text.prefix_append_cases hp with hp | ⟨r, rfl, hr⟩
    · rcases Text.prefix_append_cases hp with hp | ⟨q, rfl, hq⟩
      · exact h.nonneg p (hp.trans ((List.prefix_append t s).trans (List.prefix_append _ u)))
      · have hBefore := h.nonneg t ((List.prefix_append t s).trans (List.prefix_append _ u))
        have hInside := hs'.nonneg q hq
        rw [depth_append]
        omega
    · have hOld := h.nonneg (t ++ s ++ r) (List.prefix_append_right_inj _ |>.mpr hr)
      simp only [depth_append, hs.total, hs'.total] at hOld ⊢
      exact hOld
  total := by
    have hOld := h.total
    simp only [depth_append, hs.total, hs'.total] at hOld ⊢
    exact hOld

theorem flatMap {α : Type} {f : α → Text} {l : List α} (h : ∀ a ∈ l, Balanced (f a)) :
    Balanced (l.flatMap f) := by
  induction l with
  | nil => exact nil
  | cons a l ih =>
    rw [List.flatMap_cons]
    exact append (h a List.mem_cons_self) (ih fun b hb => h b (List.mem_cons_of_mem _ hb))

/-- Read from its end, a balanced text opens no brace that it does not close. -/
theorem suffix_nonpos (ht : Balanced t) {s : Text} (hs : s <:+ t) : depth s ≤ 0 := by
  obtain ⟨p, rfl⟩ := hs
  have hPrefix := ht.nonneg p (List.prefix_append p s)
  have hTotal := ht.total
  rw [depth_append] at hTotal
  omega

end Balanced

end FieldHint.Brace
