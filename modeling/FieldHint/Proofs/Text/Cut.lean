import FieldHint.Comment
import FieldHint.Proofs.Text.Class

/-!
# Text — runs, blanks at the ends, and marks

What the readers do to a text before they look at it: drop a run of characters of a class, strip
blanks from the ends, look for a mark. Each operation gets the one fact its callers need:

* `dropWhile_run` / `takeWhile_run` — a run is cut off where the class ends;
* `strip_eq_self_iff` / `strip_append_blank` — stripping keeps a text with solid ends, and takes
  away blanks that were put behind it;
* `infix_append_cons_iff` — a mark does not reach across a character that it does not hold;
* `slice_of_append` — a piece of a text is cut out by the offsets of its ends.
-/

namespace FieldHint.Text

variable {p : Char → Bool} {t u v mark : Text} {x : Char}

/-! ## Runs -/

section
variable {α : Type} {p : α → Bool} {t u : List α}

theorem dropWhile_eq_self (hu : ∀ c ∈ u.head?, p c = false) : u.dropWhile p = u := by
  cases u with
  | nil => rfl
  | cons c u => exact List.dropWhile_cons_of_neg (by simp [hu c (by simp)])

theorem dropWhile_run (ht : ∀ c ∈ t, p c = true) (hu : ∀ c ∈ u.head?, p c = false) :
    (t ++ u).dropWhile p = u := by
  rw [List.dropWhile_append_of_pos ht, dropWhile_eq_self hu]

theorem takeWhile_run (ht : ∀ c ∈ t, p c = true) (hu : ∀ c ∈ u.head?, p c = false) :
    (t ++ u).takeWhile p = t := by
  rw [List.takeWhile_append_of_pos ht]
  cases u with
  | nil => simp
  | cons c u => rw [List.takeWhile_cons_of_neg (by simp [hu c (by simp)]), List.append_nil]

end

theorem dropWhile_append_cons (hx : p x = false) :
    (t ++ x :: u).dropWhile p = t.dropWhile p ++ x :: u := by
  rw [List.dropWhile_append]
  split
  · next h =>
    rw [List.isEmpty_iff] at h
    rw [h, List.nil_append, dropWhile_eq_self (by simpa using hx)]
  · rfl

/-- Every text is a run and a rest that the class does not reach into. -/
theorem exists_run (p : Char → Bool) (t : Text) :
    ∃ a b, t = a ++ b ∧ (∀ c ∈ a, p c = true) ∧ ∀ c ∈ b.head?, p c = false := by
  refine ⟨t.takeWhile p, t.dropWhile p, List.takeWhile_append_dropWhile.symm, ?_, ?_⟩
  · intro c hc
    exact List.mem_takeWhile_imp hc
  · intro c hc
    have := List.head?_dropWhile_not p t
    rw [Option.mem_def.mp hc] at this
    simpa using this

/-- A text without a character is a run of other ones. -/
theorem forall_ne_of_not_mem (hx : x ∉ t) : ∀ c ∈ t, decide (c ≠ x) = true := by
  intro c hc
  rw [decide_eq_true_eq]
  rintro rfl
  exact hx hc

/-- There is one way to part a text where a character occurs first. -/
theorem append_cons_inj_of_not_mem {u' v' : Text} (hu : x ∉ u) (hu' : x ∉ u')
    (h : u ++ x :: v = u' ++ x :: v') : u = u' ∧ v = v' := by
  have hTake := congrArg (List.takeWhile fun c => decide (c ≠ x)) h
  rw [takeWhile_run (forall_ne_of_not_mem hu) (by simp),
    takeWhile_run (forall_ne_of_not_mem hu') (by simp)] at hTake
  subst hTake
  exact ⟨rfl, by simpa using h⟩

/-- What stands in front of the first occurrence of a character can be cut short. -/
theorem exists_append_cons_of_append_eq {w : Text} (hu : x ∉ u) (hv : x ∉ v)
    (h : u ++ t = v ++ x :: w) : ∃ v', t = v' ++ x :: w ∧ x ∉ v' := by
  rcases List.append_eq_append_iff.mp h with ⟨v', rfl, hRest⟩ | ⟨u', rfl, hRest⟩
  · rw [List.mem_append, not_or] at hv
    exact ⟨v', hRest, hv.2⟩
  · -- the front does not reach over the character
    cases u' with
    | nil => exact ⟨[], hRest.symm, List.not_mem_nil⟩
    | cons c u' =>
      obtain ⟨rfl, -⟩ := List.cons.inj hRest
      simp at hu

/-! ## Pieces -/

/-- A piece between two others is cut out by the offsets of its ends. -/
theorem slice_append (before t after : Text) :
    (before ++ (t ++ after)).slice before.length (before.length + t.length) = t := by
  rw [slice, ← List.append_assoc, ← List.length_append, List.take_left' rfl, List.drop_left' rfl]

theorem slice_of_append {before after : Text} {start stop : Nat} (h : t = before ++ (u ++ after))
    (hStart : start = before.length) (hStop : stop = before.length + u.length) :
    t.slice start stop = u := by
  rw [h, hStart, hStop, slice_append]

theorem getElem?_of_append {n : Nat} (h : t = u ++ x :: v) (hn : n = u.length) :
    t[n]? = some x := by
  rw [h, hn, List.getElem?_append_right le_rfl, Nat.sub_self, List.getElem?_cons_zero]

/-! ## Blanks at the ends -/

theorem stripEnd_append_blank (hv : ∀ c ∈ v, isBlank c = true) :
    stripEnd (t ++ v) = stripEnd t := by
  rw [stripEnd, dropWhileEnd, List.reverse_append, List.dropWhile_append_of_pos]
  · rfl
  · intro c hc
    exact hv c (List.mem_reverse.mp hc)

theorem strip_blank_append (hu : ∀ c ∈ u, isBlank c = true) : strip (u ++ t) = strip t := by
  rw [strip, strip, stripStart, List.dropWhile_append_of_pos hu, stripStart]

theorem strip_append_blank (hv : ∀ c ∈ v, isBlank c = true) : strip (t ++ v) = strip t := by
  rw [strip, strip, stripStart, stripStart, List.dropWhile_append]
  split
  · next h =>
    -- the text was blank itself
    rw [List.isEmpty_iff] at h
    rw [h, List.dropWhile_eq_nil_iff.mpr hv]
  · exact stripEnd_append_blank hv

theorem strip_of_blank (ht : ∀ c ∈ t, isBlank c = true) : strip t = [] := by
  rw [← List.append_nil t, strip_blank_append ht]
  rfl

/-- Behind a solid start, a stripped text has only lost its end. -/
theorem strip_prefix (ht : ∀ c ∈ t.head?, isBlank c = false) : strip t <+: t := by
  rw [strip, stripStart, dropWhile_eq_self ht]
  exact List.rdropWhile_prefix isBlank t

theorem head?_strip : ∀ c ∈ (strip t).head?, isBlank c = false := by
  intro c hc
  obtain ⟨a, b, rfl, ha, hb⟩ := exists_run isBlank t
  rw [strip_blank_append ha] at hc
  apply hb
  cases h : strip b with
  | nil => simp [h] at hc
  | cons d s =>
    obtain ⟨r, hr⟩ := strip_prefix hb
    rw [h] at hr hc
    simpa [← hr] using hc

theorem getLast?_strip : ∀ c ∈ (strip t).getLast?, isBlank c = false := by
  intro c hc
  have hne : strip t ≠ [] := by
    rintro h
    simp [h] at hc
  rw [List.getLast?_eq_some_getLast hne, Option.mem_some_iff] at hc
  rw [← hc, ← Bool.not_eq_true]
  exact List.rdropWhile_last_not isBlank (stripStart t) hne

/-- A text is stripped if it neither starts nor ends with a blank. -/
theorem strip_eq_self_iff :
    strip t = t ↔ (∀ c ∈ t.head?, isBlank c = false) ∧ ∀ c ∈ t.getLast?, isBlank c = false := by
  constructor
  · intro h
    rw [← h]
    exact ⟨head?_strip, getLast?_strip⟩
  · rintro ⟨hHead, hLast⟩
    rw [strip, stripStart, dropWhile_eq_self hHead, stripEnd, dropWhileEnd,
      dropWhile_eq_self (by simpa using hLast), List.reverse_reverse]

@[simp] theorem strip_strip : strip (strip t) = strip t :=
  strip_eq_self_iff.mpr ⟨head?_strip, getLast?_strip⟩

theorem isBlank_of_strip_eq_nil (h : strip t = []) : ∀ c ∈ t, isBlank c = true := by
  intro c hc
  by_contra hSolid
  -- nothing is stripped from a text with a solid start but blanks at its end
  obtain ⟨a, b, rfl, ha, hb⟩ := exists_run isBlank t
  rw [strip_blank_append ha] at h
  cases b with
  | nil =>
    rw [List.append_nil] at hc
    exact hSolid (ha c hc)
  | cons x b =>
    rw [strip, stripStart, dropWhile_eq_self hb, stripEnd, dropWhileEnd, List.reverse_eq_nil_iff,
      List.dropWhile_eq_nil_iff] at h
    exact absurd (h x (by simp)) (by simpa using hb x rfl)

/-- Only blanks behind the last solid character are at the end. -/
theorem stripEnd_append_cons (hx : isBlank x = false) (t u : Text) :
    stripEnd (t ++ x :: u) = t ++ x :: stripEnd u := by
  rw [stripEnd, stripEnd, dropWhileEnd, dropWhileEnd, List.reverse_append, List.reverse_cons,
    List.append_assoc, List.singleton_append, dropWhile_append_cons hx, List.reverse_append]
  simp

/-- A solid start is kept. -/
theorem strip_cons (hx : isBlank x = false) (t : Text) : strip (x :: t) = x :: stripEnd t := by
  rw [strip, stripStart, dropWhile_eq_self (by simpa using hx)]
  exact stripEnd_append_cons hx [] t

theorem strip_stripEnd (t : Text) : strip (stripEnd t) = strip t := by
  have hSplit : stripEnd t ++ t.rtakeWhile isBlank = t := List.rdropWhile_append_rtakeWhile
  conv_rhs => rw [← hSplit]
  exact (strip_append_blank fun c hc => List.mem_rtakeWhile_imp hc).symm

theorem stripEnd_eq_self (ht : ∀ c ∈ t.getLast?, isBlank c = false) : stripEnd t = t := by
  rw [stripEnd, dropWhileEnd, dropWhile_eq_self (by simpa using ht), List.reverse_reverse]

/-- The first solid character is not stripped. -/
theorem head?_strip_eq (t : Text) : (strip t).head? = (stripStart t).head? := by
  obtain ⟨a, b, rfl, ha, hb⟩ := exists_run isBlank t
  rw [strip_blank_append ha, stripStart, dropWhile_run ha hb]
  cases b with
  | nil => rfl
  | cons c b => rw [strip_cons (hb c rfl), List.head?_cons, List.head?_cons]

theorem strip_isInfix : strip t <:+: t :=
  (List.rdropWhile_prefix isBlank (stripStart t)).isInfix.trans (List.dropWhile_suffix _).isInfix

/-- What is stripped from a text is blank. -/
theorem exists_strip (t : Text) :
    ∃ a b, t = a ++ (strip t ++ b) ∧ (∀ c ∈ a, isBlank c = true) ∧ ∀ c ∈ b, isBlank c = true := by
  refine ⟨t.takeWhile isBlank, (stripStart t).rtakeWhile isBlank, ?_, ?_, ?_⟩
  · have hEnd : strip t ++ (stripStart t).rtakeWhile isBlank = stripStart t :=
      List.rdropWhile_append_rtakeWhile
    rw [hEnd]
    exact List.takeWhile_append_dropWhile.symm
  · exact fun c hc => List.mem_takeWhile_imp hc
  · exact fun c hc => List.mem_rtakeWhile_imp hc

/-- Between two stripped texts nothing is stripped. -/
theorem strip_append_append (hu : u ≠ []) (hv : v ≠ []) (hStripU : strip u = u)
    (hStripV : strip v = v) (t : Text) : strip (u ++ t ++ v) = u ++ t ++ v := by
  rw [strip_eq_self_iff] at hStripU hStripV ⊢
  rw [List.getLast?_append_of_ne_nil _ hv, List.append_assoc, List.head?_append_of_ne_nil _ hu]
  exact ⟨hStripU.1, hStripV.2⟩

theorem nonempty?_of_ne_nil (h : t ≠ []) : t.nonempty? = some t := by
  simp [nonempty?, h]

theorem nonempty?_eq_some_iff : t.nonempty? = some u ↔ t = u ∧ u ≠ [] := by
  rw [nonempty?]
  split
  · next h =>
    rw [List.isEmpty_iff] at h
    simp [h]
  · next h =>
    rw [List.isEmpty_iff] at h
    simp only [Option.some.injEq]
    exact ⟨fun e => ⟨e, e ▸ h⟩, And.left⟩

/-! ## Marks -/

@[simp] theorem after?_append : after? mark (mark ++ t) = some t := by
  simp [after?]

theorem after?_eq_some_iff : after? mark t = some u ↔ t = mark ++ u := by
  constructor
  · intro h
    rw [after?] at h
    split at h
    · next hPrefix =>
      obtain ⟨r, rfl⟩ := List.isPrefixOf_iff_prefix.mp hPrefix
      simpa using h
    · simp at h
  · rintro rfl
    exact after?_append

/-- A prefix of a joined text ends in the first part or reaches into the second. -/
theorem prefix_append_cases (h : v <+: t ++ u) : v <+: t ∨ ∃ s, v = t ++ s ∧ s <+: u := by
  rcases List.prefix_or_prefix_of_prefix h (List.prefix_append t u) with hv | ⟨s, rfl⟩
  · exact Or.inl hv
  · exact Or.inr ⟨s, rfl, List.prefix_self_append_iff.mp h⟩

/-- A mark does not reach across a character that it does not hold. -/
theorem infix_append_cons_iff (hx : x ∉ mark) :
    mark <:+: t ++ x :: u ↔ mark <:+: t ∨ mark <:+: u := by
  constructor
  · intro h
    rw [List.infix_append_iff] at h
    rcases h with h | h | ⟨a, b, rfl, ha, hb⟩
    · exact Or.inl h
    -- the mark lies in the second part, or starts in the first and reaches into the second
    · rcases List.infix_cons_iff.mp h with h | h
      · rcases List.prefix_cons_iff.mp h with rfl | ⟨s, rfl, -⟩
        · exact Or.inl List.nil_infix
        · simp at hx
      · exact Or.inr h
    · rcases List.prefix_cons_iff.mp hb with rfl | ⟨s, rfl, -⟩
      · rw [List.append_nil]
        exact Or.inl ha.isInfix
      · simp at hx
  · rintro (h | h)
    · exact h.trans (List.infix_append' [] t (x :: u))
    · exact h.trans ⟨t ++ [x], [], by simp⟩

/-- At the start of a text, too, a mark does not reach across such a character. -/
theorem prefix_append_cons_iff (hx : x ∉ mark) : mark <+: t ++ x :: u ↔ mark <+: t := by
  constructor
  · intro h
    rcases prefix_append_cases h with h | ⟨s, rfl, hs⟩
    · exact h
    · rcases List.prefix_cons_iff.mp hs with rfl | ⟨r, rfl, -⟩
      · rw [List.append_nil]
      · simp at hx
  · intro h
    exact h.trans (List.prefix_append t _)

/-- A mark of one repeated character does not occur in a text without that character. -/
theorem not_infix_of_not_mem (hMark : x ∈ mark) (hx : x ∉ t) : ¬ mark <:+: t :=
  fun h => hx (h.subset hMark)

/-- A prefix of a text with an enclosed part in front ends before, inside or behind that part. -/
theorem prefix_enclosed_cases {y : Char} (h : v <+: x :: t ++ y :: u) :
    v = [] ∨ (∃ s, v = x :: s ∧ s <+: t) ∨ ∃ s, v = x :: t ++ y :: s ∧ s <+: u := by
  rcases prefix_append_cases h with h | ⟨s, rfl, hs⟩
  · rcases List.prefix_cons_iff.mp h with rfl | ⟨s, rfl, hs⟩
    · exact Or.inl rfl
    · exact Or.inr (Or.inl ⟨s, rfl, hs⟩)
  · rcases List.prefix_cons_iff.mp hs with rfl | ⟨r, rfl, hr⟩
    · exact Or.inr (Or.inl ⟨t, List.append_nil _, List.prefix_rfl⟩)
    · exact Or.inr (Or.inr ⟨r, rfl, hr⟩)

theorem before_isPrefix (mark t : Text) : before mark t <+: t := by
  induction t with
  | nil => exact List.prefix_rfl
  | cons c t ih =>
    rw [before]
    split
    · exact List.nil_prefix
    · exact List.cons_prefix_cons.mpr ⟨rfl, ih⟩

/-- The text before the first occurrence of a mark does not hold it. -/
theorem not_infix_before (hMark : mark ≠ []) (t : Text) : ¬ mark <:+: before mark t := by
  induction t with
  | nil => simpa [before] using hMark
  | cons c t ih =>
    rw [before]
    split
    · simpa using hMark
    · next hNot =>
      intro h
      rcases List.infix_cons_iff.mp h with h | h
      · refine hNot (List.isPrefixOf_iff_prefix.mpr (h.trans ?_))
        exact List.cons_prefix_cons.mpr ⟨rfl, before_isPrefix mark t⟩
      · exact ih h

/-- A text without the mark is kept up to a character that the mark does not hold, and behind that
character the search starts anew. -/
theorem before_append_cons (hx : x ∉ mark) (hMark : mark ≠ []) (ht : ¬ mark <:+: t) (u : Text) :
    before mark (t ++ x :: u) = t ++ x :: before mark u := by
  induction t with
  | nil =>
    have hNot : ¬ mark.isPrefixOf (x :: u) = true := by
      intro h
      rcases List.prefix_cons_iff.mp (List.isPrefixOf_iff_prefix.mp h) with rfl | ⟨r, rfl, -⟩
      · exact hMark rfl
      · simp at hx
    rw [List.nil_append, before, if_neg hNot]
    rfl
  | cons c t ih =>
    have hNot : ¬ mark.isPrefixOf (c :: t ++ x :: u) = true := by
      intro h
      exact ht ((prefix_append_cons_iff hx).mp (List.isPrefixOf_iff_prefix.mp h)).isInfix
    have hTail : ¬ mark <:+: t := fun h => ht (h.trans (List.suffix_cons c t).isInfix)
    rw [List.cons_append] at hNot ⊢
    rw [before, if_neg hNot, ih hTail]
    rfl

/-- Only the first occurrence of a mark counts, so nothing behind it does. -/
theorem before_append_of_found (ht : mark <:+: t) (u : Text) :
    before mark (t ++ u) = before mark t := by
  induction t with
  | nil =>
    obtain rfl := List.infix_nil.mp ht
    cases u <;> simp [before]
  | cons c t ih =>
    rw [List.cons_append, before, before]
    by_cases hStarts : mark <+: c :: t
    · have hStarts' : mark <+: c :: (t ++ u) := hStarts.trans ⟨u, rfl⟩
      rw [if_pos (List.isPrefixOf_iff_prefix.mpr hStarts),
        if_pos (List.isPrefixOf_iff_prefix.mpr hStarts')]
    · have hTail : mark <:+: t := (List.infix_cons_iff.mp ht).resolve_left hStarts
      -- the mark is short enough to lie in the first text
      have hStarts' : ¬ mark <+: c :: (t ++ u) := fun h =>
        hStarts (List.prefix_of_prefix_length_le h ⟨u, rfl⟩
          (hTail.length_le.trans (Nat.le_succ t.length)))
      rw [if_neg (hStarts ∘ List.isPrefixOf_iff_prefix.mp),
        if_neg (hStarts' ∘ List.isPrefixOf_iff_prefix.mp), ih hTail]

theorem before_of_not_infix (ht : ¬ mark <:+: t) : before mark t = t := by
  induction t with
  | nil => rfl
  | cons c t ih =>
    have hNot : ¬ mark.isPrefixOf (c :: t) = true := fun h =>
      ht (List.isPrefixOf_iff_prefix.mp h).isInfix
    rw [before, if_neg hNot, ih fun h => ht (h.trans (List.suffix_cons c t).isInfix)]

/-- A blank behind a text does not change what is stripped from the part before a mark. -/
theorem strip_before_append_singleton (hx : x ∉ mark) (hBlank : isBlank x = true) (t : Text) :
    strip (before mark (t ++ [x])) = strip (before mark t) := by
  by_cases ht : mark <:+: t
  · rw [before_append_of_found ht]
  · have hMark : mark ≠ [] := by
      rintro rfl
      exact ht List.nil_infix
    rw [before_append_cons hx hMark ht, before_of_not_infix ht]
    exact strip_append_blank (by simpa [before] using hBlank)

end FieldHint.Text
