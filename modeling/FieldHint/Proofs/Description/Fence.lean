import FieldHint.Description.Basic
import FieldHint.Proofs.Text.Lines

/-!
# Fences — the block that is found

The first block of a language is the one that was put there, if no fence of the language opens
before it (`Unopened`) and no line of its code looks like a closing fence (`Enclosable`).

* `find?_fenced` — the block is found with its prose and its code, whatever follows it;
* `find?_block` — the same for a block as it is written here.

The language is any text at all: the reader compares it character by character.
-/

namespace FieldHint.Fence

variable {language code prose pad pad' brk brk' t u r : Text} {x : Char}

/-! ## Line breaks -/

/-- A line feed, perhaps behind a carriage return. -/
def IsLineBreak (t : Text) : Prop := t = ['\n'] ∨ t = ['\r', '\n']

theorem lineBreak?_eq_some_iff : lineBreak? t = some r ↔ ∃ brk, IsLineBreak brk ∧ t = brk ++ r := by
  constructor
  · intro h
    unfold lineBreak? at h
    split at h
    · exact ⟨_, Or.inr rfl, by rw [Option.some_inj.mp h]; rfl⟩
    · exact ⟨_, Or.inl rfl, by rw [Option.some_inj.mp h]; rfl⟩
    · simp at h
  · rintro ⟨_, rfl | rfl, rfl⟩ <;> rfl

theorem isSpacing_head_lineBreak (h : IsLineBreak brk) :
    ∀ c ∈ (brk ++ t).head?, Text.isSpacing c = false := by
  rcases h with rfl | rfl <;> rintro _ ⟨⟩ <;> decide

theorem dropWhile_spacing_mark (hPad : ∀ c ∈ pad, Text.isSpacing c = true) (t : Text) :
    (pad ++ (mark ++ t)).dropWhile Text.isSpacing = mark ++ t :=
  Text.dropWhile_run hPad (by rintro _ ⟨⟩; decide)

/-! ## The end of a block -/

/-- Code that a block can hold: no line after its first starts with a fence, and the carriage
return before the closing fence is not its own. -/
structure Enclosable (code : Text) : Prop where
  no_fence : ∀ line, '\n' :: line <:+ code → ¬ mark <+: line.dropWhile Text.isSpacing
  no_return : code.getLast? ≠ some '\r'

namespace Enclosable

theorem of_no_mark (hMark : ¬ mark <:+: code) (hReturn : code.getLast? ≠ some '\r') :
    Enclosable code where
  no_fence line hLine hFence := by
    have hInner : line.dropWhile Text.isSpacing <:+ code :=
      (List.dropWhile_suffix _).trans ((List.suffix_cons '\n' line).trans hLine)
    exact hMark (hFence.isInfix.trans hInner.isInfix)
  no_return := hReturn

theorem of_cons (h : Enclosable (x :: t)) : Enclosable t where
  no_fence line hLine := h.no_fence line (hLine.trans (List.suffix_cons x t))
  no_return hLast := h.no_return (by rw [List.getLast?_cons, hLast]; rfl)

/-- A line in front is no matter if what follows it does not start with a fence. -/
theorem line (h : Enclosable u) (ht : '\n' ∉ t) (hFence : ¬ mark <+: u.dropWhile Text.isSpacing) :
    Enclosable (t ++ '\n' :: u) where
  no_fence line hLine := by
    rcases (Text.line_feed_suffix_iff ht).mp hLine with rfl | hLine
    · exact hFence
    · exact h.no_fence line hLine
  no_return := by
    cases u with
    | nil => simp
    | cons c u =>
      rw [List.getLast?_append_of_ne_nil _ (by simp), List.getLast?_cons_cons]
      exact h.no_return

end Enclosable

/-- Whether a text starts with a fence is decided on its first line. -/
theorem fenced_line_feed_iff (t u : Text) :
    mark <+: (t ++ '\n' :: u).dropWhile Text.isSpacing ↔ mark <+: t.dropWhile Text.isSpacing := by
  rw [Text.dropWhile_append_cons (by decide), Text.prefix_append_cons_iff (by decide)]

/-- No line of a text starts with a fence, the first line included. -/
theorem forall_line_iff (t : Text) :
    (¬ mark <+: t.dropWhile Text.isSpacing ∧
        ∀ line, '\n' :: line <:+ t → ¬ mark <+: line.dropWhile Text.isSpacing) ↔
      ∀ line ∈ t.splitOn '\n', ¬ mark <+: line.dropWhile Text.isSpacing := by
  induction t using Text.lines_induction with
  | line l hl =>
    rw [List.splitOn_eq_singleton hl, List.forall_mem_singleton, and_iff_left_iff_imp]
    intro _ line hLine
    exact absurd (hLine.mem List.mem_cons_self) hl
  | next l t hl ih =>
    rw [List.splitOn_append_cons_self_of_not_mem hl, List.forall_mem_cons, ← ih,
      fenced_line_feed_iff]
    simp only [Text.line_feed_suffix_iff hl, or_imp, forall_and, forall_eq]

/-- Code can be held by a block if none of its lines but the first starts with a fence. -/
theorem Enclosable.of_lines
    (hFence : ∀ line ∈ (code.splitOn '\n').tail, ¬ mark <+: line.dropWhile Text.isSpacing)
    (hReturn : code.getLast? ≠ some '\r') : Enclosable code where
  no_fence line hLine := by
    obtain ⟨l, t, rfl, hl⟩ := List.eq_append_cons_of_mem (hLine.mem List.mem_cons_self)
    rw [List.splitOn_append_cons_self_of_not_mem hl, List.tail_cons] at hFence
    obtain ⟨hFirst, hLater⟩ := (forall_line_iff t).mpr hFence
    rcases (Text.line_feed_suffix_iff hl).mp hLine with rfl | hLine
    · exact hFirst
    · exact hLater line hLine
  no_return := hReturn

theorem closes_eq_true_iff :
    closes t = true ↔
      ∃ brk r, IsLineBreak brk ∧ t = brk ++ r ∧ mark <+: r.dropWhile Text.isSpacing := by
  rw [closes]
  constructor
  · intro h
    split at h
    · next r hr =>
      obtain ⟨brk, hBrk, rfl⟩ := lineBreak?_eq_some_iff.mp hr
      exact ⟨brk, r, hBrk, rfl, List.isPrefixOf_iff_prefix.mp h⟩
    · simp at h
  · rintro ⟨brk, r, hBrk, rfl, hFence⟩
    rw [lineBreak?_eq_some_iff.mpr ⟨brk, hBrk, rfl⟩]
    exact List.isPrefixOf_iff_prefix.mpr hFence

/-- No block ends inside code that it can hold, whatever line follows the code. -/
theorem closes_append (h : Enclosable t) (ht : t ≠ []) (hBrk : IsLineBreak brk) :
    closes (t ++ (brk ++ u)) = false := by
  -- of the line break it only matters that a fence and its indent do not go across it
  obtain ⟨x, v, hx, hxMark, hxSpacing⟩ : ∃ x v, brk ++ u = x :: v ∧ x ∉ mark ∧
      Text.isSpacing x = false := by
    rcases hBrk with rfl | rfl
    · exact ⟨'\n', u, rfl, by decide, by decide⟩
    · exact ⟨'\r', '\n' :: u, rfl, by decide, by decide⟩
  have hLine : ∀ line, '\n' :: line <:+ t →
      ¬ mark <+: (line ++ x :: v).dropWhile Text.isSpacing := by
    intro line hSuffix hFence
    rw [Text.dropWhile_append_cons hxSpacing, Text.prefix_append_cons_iff hxMark] at hFence
    exact h.no_fence line hSuffix hFence
  rw [hx, ← Bool.not_eq_true, closes_eq_true_iff]
  obtain ⟨c, t, rfl⟩ := List.exists_cons_of_ne_nil ht
  rintro ⟨_, r, rfl | rfl, hSplit, hFence⟩
  · simp only [List.cons_append, List.nil_append, List.cons.injEq] at hSplit
    obtain ⟨rfl, rfl⟩ := hSplit
    exact hLine t List.suffix_rfl hFence
  · cases t with
    | nil =>
      -- the carriage return ends the code, which is excluded
      simp only [List.cons_append, List.nil_append, List.cons.injEq] at hSplit
      exact h.no_return (by rw [hSplit.1]; rfl)
    | cons d t =>
      simp only [List.cons_append, List.nil_append, List.cons.injEq] at hSplit
      obtain ⟨rfl, rfl, rfl⟩ := hSplit
      exact hLine t (List.suffix_cons _ _) hFence

/-- A block ends at the closing fence behind its code. -/
theorem interior?_append (h : Enclosable code) (hBrk : IsLineBreak brk)
    (hPad : ∀ c ∈ pad, Text.isSpacing c = true) (rest : Text) :
    interior? (code ++ (brk ++ (pad ++ (mark ++ rest)))) = some code := by
  induction code with
  | nil =>
    -- the code is over: here the fence closes the block
    have hCloses : closes (brk ++ (pad ++ (mark ++ rest))) = true :=
      closes_eq_true_iff.mpr
        ⟨brk, _, hBrk, rfl, by rw [dropWhile_spacing_mark hPad]; exact List.prefix_append mark rest⟩
    rcases hBrk with rfl | rfl <;> exact if_pos hCloses
  | cons c code ih =>
    -- inside the code no line does
    rw [List.cons_append, interior?, ← List.cons_append, closes_append h (by simp) hBrk,
      ih h.of_cons]
    rfl

/-! ## The start of a block -/

/-- In front of the text, the prose opens no block of the language. -/
def Unopened (language prose t : Text) : Prop :=
  ∀ s, s ≠ [] → s <:+ prose → ¬ mark ++ language <+: s ++ t

theorem Unopened.nil : Unopened language [] t :=
  fun _ hne hs => absurd (List.suffix_nil.mp hs) hne

/-- Prose without a fence opens no block of any language, if it ends with its line. -/
theorem Unopened.of_no_mark (h : ¬ mark <:+: prose) :
    Unopened language (prose ++ ['\n']) t := by
  intro s hne hs hOpen
  obtain ⟨r, rfl, hr⟩ : ∃ r, s = r ++ ['\n'] ∧ r <:+ prose := by
    rcases List.suffix_concat_iff.mp hs with rfl | ⟨r, rfl, hr⟩
    · exact absurd rfl hne
    · exact ⟨r, rfl, hr⟩
  have hMark : mark <+: r ++ '\n' :: t := by
    simpa using (List.prefix_append mark language).trans hOpen
  exact h (((Text.prefix_append_cons_iff (by decide)).mp hMark).isInfix.trans hr.isInfix)

theorem opening?_append (language : Text) (hPad : ∀ c ∈ pad, Text.isSpacing c = true)
    (hBrk : IsLineBreak brk) (t : Text) :
    opening? language (mark ++ language ++ (pad ++ (brk ++ t))) = some t := by
  simp only [opening?, Text.after?_append, Option.bind_eq_bind, Option.bind_some,
    Text.dropWhile_run hPad (isSpacing_head_lineBreak hBrk)]
  exact lineBreak?_eq_some_iff.mpr ⟨brk, hBrk, rfl⟩

theorem opening?_eq_none (h : ¬ mark ++ language <+: t) : opening? language t = none := by
  have hAfter : Text.after? (mark ++ language) t = none := by
    rw [Text.after?, if_neg (by rwa [List.isPrefixOf_iff_prefix])]
  rw [opening?, hAfter]
  rfl

theorem find?_of_opening (h : (opening? language t).bind interior? = some code) :
    find? language t = some ([], code) := by
  cases t with
  | nil => simp [opening?, Text.after?, mark] at h
  | cons c t => rw [find?, h]

/-- The search passes prose in which no block opens. -/
theorem find?_append_of_opening?
    (h : ∀ s, s ≠ [] → s <:+ prose → opening? language (s ++ t) = none) :
    find? language (prose ++ t) =
      (find? language t).map fun (before, code) => (prose ++ before, code) := by
  induction prose with
  | nil => simp
  | cons c prose ih =>
    -- no block opens here, so the search goes on with the next character
    have hNone : opening? language (c :: prose ++ t) = none :=
      h (c :: prose) (by simp) List.suffix_rfl
    rw [List.cons_append] at hNone ⊢
    rw [find?, hNone, ih fun s hne hs => h s hne (hs.trans (List.suffix_cons c prose)),
      Option.bind_none, Option.map_map]
    rfl

theorem find?_append (h : Unopened language prose t) :
    find? language (prose ++ t) =
      (find? language t).map fun (before, code) => (prose ++ before, code) :=
  find?_append_of_opening? fun s hne hs => opening?_eq_none (h s hne hs)

/-- Somewhere in the text, a block of the language opens. The end of the text counts as the end of
a line. -/
def OpensIn (language t : Text) : Prop :=
  ∃ s, s <:+ t ∧ (opening? language (s ++ ['\n'])).isSome = true

theorem opensIn_iff :
    OpensIn language t ↔ ∃ s ∈ t.tails, (opening? language (s ++ ['\n'])).isSome = true := by
  simp only [List.mem_tails]
  exact Iff.rfl

instance : Decidable (OpensIn language t) := decidable_of_iff _ opensIn_iff.symm

/-- Whether a text starts with a line break does not depend on what follows its first line feed. -/
theorem isSome_lineBreak?_append (t u : Text) :
    (lineBreak? (t ++ '\n' :: u)).isSome = (lineBreak? (t ++ ['\n'])).isSome := by
  cases t with
  | nil => rfl
  | cons c t =>
    by_cases hFeed : c = '\n'
    · subst hFeed
      rfl
    by_cases hReturn : c = '\r'
    · subst hReturn
      cases t with
      | nil => rfl
      | cons d t =>
        by_cases hSecond : d = '\n'
        · subst hSecond
          rfl
        · simp [lineBreak?, hSecond]
    · simp [lineBreak?, hFeed, hReturn]

/-- A line feed ends the line on which a block may open, so what follows it has no say. -/
theorem isSome_opening?_of_append (hLanguage : '\n' ∉ language)
    (h : (opening? language (t ++ '\n' :: u)).isSome = true) :
    (opening? language (t ++ ['\n'])).isSome = true := by
  obtain ⟨r, hOpen⟩ := Option.isSome_iff_exists.mp h
  simp only [opening?, Option.bind_eq_bind, Option.bind_eq_some_iff,
    Text.after?_eq_some_iff] at hOpen
  obtain ⟨v, hSplit, hBreak⟩ := hOpen
  -- the fence and the language stand before the line feed
  have hMark : '\n' ∉ mark ++ language := by
    rw [List.mem_append, not_or]
    exact ⟨by decide, hLanguage⟩
  obtain ⟨w, rfl⟩ := (Text.prefix_append_cons_iff hMark).mp ⟨v, hSplit.symm⟩
  obtain rfl : v = w ++ '\n' :: u := by
    rw [List.append_assoc] at hSplit
    exact (List.append_cancel_left hSplit).symm
  -- so do the blanks, and at most a carriage return is left
  have hFeed : Text.isSpacing '\n' = false := by decide
  rw [Text.dropWhile_append_cons hFeed] at hBreak
  have hShort : (lineBreak? (w.dropWhile Text.isSpacing ++ ['\n'])).isSome = true := by
    rw [← isSome_lineBreak?_append _ u, hBreak]
    rfl
  obtain ⟨q, hq⟩ := Option.isSome_iff_exists.mp hShort
  rw [opening?, List.append_assoc, Text.after?_append, Option.bind_eq_bind, Option.bind_some,
    Text.dropWhile_append_cons hFeed, hq]
  rfl

/-- Prose in which no block opens opens none in front of a text, either, if a blank line parts the
two. -/
theorem opening?_of_not_opensIn (hLanguage : '\n' ∉ language) (h : ¬ OpensIn language prose)
    {s : Text} (hne : s ≠ []) (hs : s <:+ prose ++ ['\n', '\n']) (t : Text) :
    opening? language (s ++ t) = none := by
  rw [← Option.not_isSome_iff_eq_none]
  intro hOpen
  -- no block opens on the blank line itself, for a fence starts with a backtick
  obtain ⟨r, v, hSplit, hr⟩ : ∃ r v, s ++ t = r ++ '\n' :: v ∧ r <:+ prose := by
    have hLines : prose ++ ['\n', '\n'] = prose ++ ['\n'] ++ ['\n'] := by simp
    rw [hLines] at hs
    rcases List.suffix_concat_iff.mp hs with rfl | ⟨q, rfl, hq⟩
    · exact absurd rfl hne
    · rcases List.suffix_concat_iff.mp hq with rfl | ⟨r, rfl, hr⟩
      · exact ⟨[], t, rfl, List.nil_suffix⟩
      · exact ⟨r, '\n' :: t, by simp, hr⟩
  rw [hSplit] at hOpen
  exact h ⟨r, hr, isSome_opening?_of_append hLanguage hOpen⟩

/-! ## Blocks -/

/-- The first block of a language, with any spaces and tabs behind its first fence and before its
last, is found whatever follows. -/
theorem find?_fenced
    (hProse : Unopened language prose
      (mark ++ language ++ (pad ++ (brk ++ (code ++ (brk' ++ (pad' ++ (mark ++ t))))))))
    (hPad : ∀ c ∈ pad, Text.isSpacing c = true) (hBrk : IsLineBreak brk) (hCode : Enclosable code)
    (hBrk' : IsLineBreak brk') (hPad' : ∀ c ∈ pad', Text.isSpacing c = true) :
    find? language
        (prose ++
          (mark ++ language ++ (pad ++ (brk ++ (code ++ (brk' ++ (pad' ++ (mark ++ t)))))))) =
      some (prose, code) := by
  have hBlock : find? language
      (mark ++ language ++ (pad ++ (brk ++ (code ++ (brk' ++ (pad' ++ (mark ++ t))))))) =
      some ([], code) := by
    refine find?_of_opening ?_
    rw [opening?_append language hPad hBrk, Option.bind_some, interior?_append hCode hBrk' hPad']
  rw [find?_append hProse, hBlock]
  simp

/-- A block as it is written here is found behind its prose. -/
theorem find?_block (hProse : Unopened language prose (block language code ++ t))
    (hCode : Enclosable code) :
    find? language (prose ++ (block language code ++ t)) = some (prose, code) := by
  have hNone : ∀ c ∈ ([] : Text), Text.isSpacing c = true := by simp
  have hBlock : block language code ++ t =
      mark ++ language ++ ([] ++ (['\n'] ++ (code ++ (['\n'] ++ ([] ++ (mark ++ t)))))) := by
    simp [block]
  rw [hBlock] at hProse ⊢
  exact find?_fenced hProse hNone (Or.inl rfl) hCode (Or.inl rfl) hNone

/-- A block is found behind prose in which none opens and a blank line. -/
theorem find?_block_of_not_opensIn (hLanguage : '\n' ∉ language)
    (hProse : ¬ OpensIn language prose) (hCode : Enclosable code) :
    find? language (prose ++ ['\n', '\n'] ++ (block language code ++ t)) =
      some (prose ++ ['\n', '\n'], code) := by
  have hBlock : find? language ([] ++ (block language code ++ t)) = some ([], code) :=
    find?_block .nil hCode
  rw [List.nil_append] at hBlock
  rw [find?_append_of_opening? fun s hne hs => opening?_of_not_opensIn hLanguage hProse hne hs _,
    hBlock]
  simp

end FieldHint.Fence
