import FieldHint.Proofs.Text.Cut

/-!
# Text — lines

How the two readings of a text as lines behave where texts are put together.

* `lines_append_newline` — a line feed parts the lines before it from those after it;
* `exists_line_of_isLined` — in a text of ordinary lines, a line is what stands before a line feed;
* `EndsLine` — a text of whole lines, behind which a new one starts;
* `lineStarts_append_newline` — so it does for the starts of lines, which keep the text that
  follows and move by the offset;
* `exists_of_mem_lineStarts` — each start parts the text where its offset says.
-/

namespace FieldHint.Text

variable {t u l : Text} {ts : List Text} {c : Char}

/-! ## Lines in the wide sense -/

/-- Only a carriage return looks at the character behind it. -/
theorem lines_cons (h : c ≠ '\r' ∨ t.head? ≠ some '\n') :
    lines (c :: t) = if isBreak c then [] :: lines t else consHead c (lines t) := by
  rw [lines]
  rintro rest rfl rfl
  simp at h

theorem lines_newline (t : Text) : lines ('\n' :: t) = [] :: lines t := by
  rw [lines_cons (Or.inl (by decide)), if_pos (by decide)]

theorem lines_ne_nil (h : t ≠ []) : lines t ≠ [] := by
  cases t using lines.fun_cases with
  | case1 => exact absurd rfl h
  | case2 t => simp [lines]
  | case3 c t hNot hBreak => rw [lines, if_pos hBreak] <;> simp_all
  | case4 c t hNot hBreak =>
    rw [lines, if_neg hBreak]
    · cases lines t <;> simp [consHead]
    · exact hNot

theorem consHead_append {ts : List Text} (h : ts ≠ []) (us : List Text) :
    consHead c (ts ++ us) = consHead c ts ++ us := by
  cases ts with
  | nil => exact absurd rfl h
  | cons t ts => rfl

/-- A line feed parts the lines before it from those after it. -/
theorem lines_append_newline (t u : Text) :
    lines (t ++ '\n' :: u) = lines (t ++ ['\n']) ++ lines u := by
  -- one character more in front; a lone carriage return would take the line feed with it
  have step : ∀ (c : Char) (t : Text), (∀ r, c = '\r' → t = '\n' :: r → False) →
      lines (t ++ '\n' :: u) = lines (t ++ ['\n']) ++ lines u →
      lines (c :: t ++ '\n' :: u) = lines (c :: t ++ ['\n']) ++ lines u := by
    intro c t hNot ih
    by_cases hLone : c = '\r' ∧ t = []
    · obtain ⟨rfl, rfl⟩ := hLone
      simp [lines]
    · have hCons : ∀ v : Text, c ≠ '\r' ∨ (t ++ '\n' :: v).head? ≠ some '\n' := by
        intro v
        rcases t with _ | ⟨d, t⟩
        · exact Or.inl fun hc => hLone ⟨hc, rfl⟩
        · by_cases hc : c = '\r'
          · right
            rintro hd
            exact hNot t hc (by simp_all)
          · exact Or.inl hc
      rw [List.cons_append, List.cons_append, lines_cons (hCons u), lines_cons (hCons []), ih]
      split
      · rfl
      · exact consHead_append (lines_ne_nil (by simp)) _
  induction t using lines.induct with
  | case1 => simp [lines_newline, lines]
  | case2 t ih => simp [lines, ih]
  | case3 c t hNot _ ih => exact step c t hNot ih
  | case4 c t hNot _ ih => exact step c t hNot ih

theorem lines_of_line (hl : ∀ c ∈ l, isBreak c = false) (t : Text) :
    lines (l ++ '\n' :: t) = l :: lines t := by
  induction l with
  | nil => exact lines_newline t
  | cons c l ih =>
    have hc : isBreak c = false := hl c (by simp)
    have hne : c ≠ '\r' := by
      rintro rfl
      simp [isBreak] at hc
    rw [List.cons_append, lines_cons (Or.inl hne), hc,
      ih fun d hd => hl d (List.mem_cons_of_mem _ hd)]
    rfl

/-- A text without a break is one line. -/
theorem lines_of_no_break (hl : ∀ c ∈ l, isBreak c = false) (hne : l ≠ []) : lines l = [l] := by
  induction l with
  | nil => exact absurd rfl hne
  | cons c l ih =>
    rw [List.forall_mem_cons] at hl
    have hReturn : c ≠ '\r' := by
      rintro rfl
      simp [isBreak] at hl
    rw [lines_cons (Or.inl hReturn), hl.1]
    by_cases hEnd : l = []
    · subst hEnd
      rfl
    · rw [ih hl.2 hEnd]
      rfl

theorem lines_of_return (hl : ∀ c ∈ l, isBreak c = false) : lines (l ++ ['\r']) = [l] := by
  induction l with
  | nil => rfl
  | cons c l ih =>
    rw [List.forall_mem_cons] at hl
    have hReturn : c ≠ '\r' := by
      rintro rfl
      simp [isBreak] at hl
    rw [List.cons_append, lines_cons (Or.inl hReturn), hl.1, ih hl.2]
    rfl

/-- A carriage return in front of the line feed belongs to the break. -/
theorem lines_of_returned_line (hl : ∀ c ∈ l, isBreak c = false) (t : Text) :
    lines (l ++ '\r' :: '\n' :: t) = l :: lines t := by
  induction l with
  | nil => rw [List.nil_append, lines]
  | cons c l ih =>
    rw [List.forall_mem_cons] at hl
    have hReturn : c ≠ '\r' := by
      rintro rfl
      simp [isBreak] at hl
    rw [List.cons_append, lines_cons (Or.inl hReturn), hl.1, ih hl.2]
    rfl

/-- Line feeds are the only breaks of the text, perhaps with a carriage return in front of each. A
carriage return at the end is one whose line feed is still to come. -/
def isLined : Text → Bool
  | [] => true
  | c :: t =>
    (!isBreak c || c = '\n' || (c = '\r' && t.head?.all fun d => d = '\n')) && isLined t

theorem isLined_cons_iff : isLined (c :: t) = true ↔
    (isBreak c = true → c = '\n' ∨ c = '\r' ∧ ∀ d ∈ t.head?, d = '\n') ∧ isLined t = true := by
  cases h : isBreak c <;> cases t <;> simp [isLined, h]

theorem isLined_of_append (h : isLined (t ++ u) = true) : isLined t = true ∧ isLined u = true := by
  induction t with
  | nil => exact ⟨rfl, h⟩
  | cons c t ih =>
    rw [List.cons_append, isLined_cons_iff] at h
    obtain ⟨hc, hTail⟩ := h
    obtain ⟨ht, hu⟩ := ih hTail
    refine ⟨isLined_cons_iff.mpr ⟨?_, ht⟩, hu⟩
    intro hBreak
    refine (hc hBreak).imp_right (And.imp_right fun hHead d hd => hHead d ?_)
    -- what follows the character is there in the whole text, too
    cases t with
    | nil => simp at hd
    | cons e t => exact hd

/-- A line of such a text is one in the wide sense, up to the carriage return at its end. -/
theorem exists_line_of_isLined (h : isLined l = true) (hl : '\n' ∉ l) :
    ∃ m, (l = m ∨ l = m ++ ['\r']) ∧ ∀ c ∈ m, isBreak c = false := by
  induction l with
  | nil => exact ⟨[], Or.inl rfl, by simp⟩
  | cons c l ih =>
    rw [List.mem_cons, not_or] at hl
    rw [isLined_cons_iff] at h
    obtain ⟨m, hm, hFree⟩ := ih h.2 hl.2
    cases hBreak : isBreak c with
    | false =>
      refine ⟨c :: m, hm.imp (congrArg _) (congrArg _), ?_⟩
      exact List.forall_mem_cons.mpr ⟨hBreak, hFree⟩
    | true =>
      rcases h.1 hBreak with rfl | ⟨rfl, hHead⟩
      · exact absurd rfl hl.1
      · -- behind a carriage return, the line is over
        have hEnd : l = [] := by
          cases l with
          | nil => rfl
          | cons d l => exact absurd (List.mem_cons.mpr (Or.inl (hHead d rfl).symm)) hl.2
        exact ⟨[], Or.inr (by rw [hEnd]; rfl), by simp⟩

/-- Line feeds are the only breaks of the text, and no carriage return stands in front of one. -/
def BreaksAtFeeds (t : Text) : Prop := ∀ c ∈ t, isBreak c = true → c = '\n'

instance (t : Text) : Decidable t.BreaksAtFeeds := List.decidableBAll _ t

theorem BreaksAtFeeds.one_line (h : t.BreaksAtFeeds) (hsub : u ⊆ t) (hu : '\n' ∉ u) :
    ∀ c ∈ u, isBreak c = false := by
  intro c hc
  by_contra hBreak
  obtain rfl := h c (hsub hc) (Bool.eq_true_of_not_eq_false hBreak)
  exact hu hc

/-- Line by line: a text is a line, or a line and a text behind its line feed. -/
@[elab_as_elim]
theorem lines_induction {motive : Text → Prop} (line : ∀ l, '\n' ∉ l → motive l)
    (next : ∀ l t, '\n' ∉ l → motive t → motive (l ++ '\n' :: t)) (t : Text) : motive t := by
  induction hn : t.length using Nat.strong_induction_on generalizing t with
  | _ n ih =>
    by_cases hFeed : '\n' ∈ t
    · obtain ⟨l, rest, rfl, hl⟩ := List.eq_append_cons_of_mem hFeed
      have hShorter : rest.length < n := by
        rw [← hn, List.length_append, List.length_cons]
        omega
      exact next l rest hl (ih rest.length hShorter rest rfl)
    · exact line t hFeed

/-- A text of several lines parts at its last line feed. -/
theorem exists_last_line (h : '\n' ∈ t) : ∃ a b, t = a ++ '\n' :: b ∧ '\n' ∉ b := by
  induction t using lines_induction with
  | line l hl => exact absurd h hl
  | next l t hl ih =>
    by_cases ht : '\n' ∈ t
    · obtain ⟨a, b, rfl, hb⟩ := ih ht
      exact ⟨l ++ '\n' :: a, b, by simp, hb⟩
    · exact ⟨l, t, rfl, ht⟩

/-- What stands behind a line feed is all that follows the first one, or it is part of that. -/
theorem line_feed_suffix_iff (hl : '\n' ∉ l) :
    '\n' :: u <:+ l ++ '\n' :: t ↔ u = t ∨ '\n' :: u <:+ t := by
  induction l with
  | nil => simp [List.suffix_cons_iff]
  | cons c l ih =>
    rw [List.mem_cons, not_or] at hl
    rw [List.cons_append, List.suffix_cons_iff, ih hl.2, or_iff_right]
    rintro ⟨⟩
    exact hl.1 rfl

theorem mem_consHead {ts : List Text} (h : l ∈ consHead c ts) :
    l ∈ ts ∨ ∃ m, l = c :: m ∧ (m = [] ∨ m ∈ ts) := by
  cases ts with
  | nil => exact Or.inr ⟨[], List.mem_singleton.mp h, Or.inl rfl⟩
  | cons m ts =>
    rcases List.mem_cons.mp h with rfl | h
    · exact Or.inr ⟨m, rfl, Or.inr List.mem_cons_self⟩
    · exact Or.inl (List.mem_cons_of_mem m h)

/-- The lines hold characters of the text, and none that ends a line. -/
theorem of_mem_lines (hl : l ∈ lines t) (hc : c ∈ l) : c ∈ t ∧ isBreak c = false := by
  induction t using lines.induct generalizing l with
  | case1 => simp [lines] at hl
  -- carriage return and line feed
  | case2 t ih =>
    rw [lines, List.mem_cons] at hl
    rcases hl with rfl | hl
    · simp at hc
    · obtain ⟨hMem, hBreak⟩ := ih hl hc
      exact ⟨List.mem_cons_of_mem _ (List.mem_cons_of_mem _ hMem), hBreak⟩
  -- another break: an empty line is put in front
  | case3 d t hNot hBreak ih =>
    rw [lines, if_pos hBreak, List.mem_cons] at hl
    · rcases hl with rfl | hl
      · simp at hc
      · obtain ⟨hMem, hBreak⟩ := ih hl hc
        exact ⟨List.mem_cons_of_mem _ hMem, hBreak⟩
    · exact hNot
  -- no break: the character is put in front of the first line
  | case4 d t hNot hBreak ih =>
    rw [lines, if_neg hBreak] at hl
    · rcases mem_consHead hl with hl | ⟨m, rfl, hm⟩
      · obtain ⟨hMem, hBreak⟩ := ih hl hc
        exact ⟨List.mem_cons_of_mem _ hMem, hBreak⟩
      · rcases List.mem_cons.mp hc with rfl | hc
        · exact ⟨List.mem_cons_self, Bool.eq_false_of_not_eq_true hBreak⟩
        · rcases hm with rfl | hm
          · simp at hc
          · obtain ⟨hMem, hBreak⟩ := ih hm hc
            exact ⟨List.mem_cons_of_mem _ hMem, hBreak⟩
    · exact hNot

/-- The lines hold no character that the text does not. -/
theorem mem_of_mem_lines (hl : l ∈ lines t) (hc : c ∈ l) : c ∈ t := (of_mem_lines hl hc).1

/-- No line holds a line feed. -/
theorem newline_not_mem_of_mem_lines (hl : l ∈ lines t) : '\n' ∉ l :=
  fun hc => absurd (of_mem_lines hl hc).2 (by decide)

/-- The texts are cut out of a text, the first one at its start. -/
structure CutFrom (ts : List Text) (t : Text) : Prop where
  head : ∀ l ∈ ts.head?, l <+: t
  isInfix : ∀ l ∈ ts, l <:+: t

namespace CutFrom

theorem nil_cons (h : CutFrom ts t) (ht : t <:+ u) : CutFrom ([] :: ts) u where
  head := by
    rintro _ ⟨⟩
    exact List.nil_prefix
  isInfix := List.forall_mem_cons.mpr
    ⟨List.nil_infix, fun l hl => (h.isInfix l hl).trans ht.isInfix⟩

theorem consHead (h : CutFrom ts t) (c : Char) : CutFrom (consHead c ts) (c :: t) := by
  cases ts with
  | nil =>
    have hOne : [c] <+: c :: t := ⟨t, rfl⟩
    exact ⟨by rintro _ ⟨⟩; exact hOne, List.forall_mem_singleton.mpr hOne.isInfix⟩
  | cons l ts =>
    have hFirst : c :: l <+: c :: t := List.cons_prefix_cons.mpr ⟨rfl, h.head l rfl⟩
    refine ⟨by rintro _ ⟨⟩; exact hFirst, List.forall_mem_cons.mpr ⟨hFirst.isInfix, ?_⟩⟩
    intro m hm
    exact (h.isInfix m (List.mem_cons_of_mem l hm)).trans (List.suffix_cons c t).isInfix

end CutFrom

theorem flatten_consHead (c : Char) (ts : List Text) :
    (consHead c ts).flatten = c :: ts.flatten := by
  cases ts <;> rfl

/-- The lines of a text are cut out of it. -/
theorem cutFrom_lines (t : Text) : CutFrom (lines t) t := by
  induction t using lines.induct with
  | case1 => exact ⟨by simp [lines], by simp [lines]⟩
  | case2 t ih =>
    rw [lines]
    exact ih.nil_cons ((List.suffix_cons '\n' t).trans (List.suffix_cons '\r' ('\n' :: t)))
  | case3 c t hNot hBreak ih =>
    rw [lines, if_pos hBreak]
    · exact ih.nil_cons (List.suffix_cons c t)
    · exact hNot
  | case4 c t hNot hBreak ih =>
    rw [lines, if_neg hBreak]
    · exact ih.consHead c
    · exact hNot

/-! ## Whole lines -/

/-- The text ends with a line feed, if it is not empty: what follows it starts on a new line. -/
def EndsLine (t : Text) : Prop := t = [] ∨ t.getLast? = some '\n'

theorem EndsLine.append (ht : EndsLine t) (hu : EndsLine u) : EndsLine (t ++ u) := by
  rcases hu with rfl | hu
  · rwa [List.append_nil]
  · refine Or.inr ?_
    rwa [List.getLast?_append_of_ne_nil _ (by rintro rfl; simp at hu)]

/-- The lines of such a text come before those of the text behind it. -/
theorem EndsLine.lines_append (ht : EndsLine t) (u : Text) :
    lines (t ++ u) = lines t ++ lines u := by
  rcases ht with rfl | hLast
  · rfl
  · obtain ⟨b, rfl⟩ := List.getLast?_eq_some_iff.mp hLast
    rw [List.append_assoc, List.singleton_append, lines_append_newline]

theorem endsLine_flatMap (ls : List Text) : EndsLine (ls.flatMap (· ++ ['\n'])) := by
  induction ls with
  | nil => exact Or.inl rfl
  | cons l ls ih =>
    rw [List.flatMap_cons]
    exact EndsLine.append (Or.inr List.getLast?_concat) ih

/-! ## Starts of lines -/

theorem laterLineStarts_append (n : Nat) (t u : Text) :
    laterLineStarts n (t ++ u) =
      (laterLineStarts n t).map (fun s => (s.1, s.2 ++ u)) ++ laterLineStarts (n + t.length) u := by
  induction t generalizing n with
  | nil => simp [laterLineStarts]
  | cons c t ih =>
    have hLength : n + 1 + t.length = n + (c :: t).length := by
      rw [List.length_cons]
      omega
    rw [List.cons_append, laterLineStarts, laterLineStarts, ih, hLength]
    split <;> rfl

theorem laterLineStarts_add (m n : Nat) (t : Text) :
    laterLineStarts (m + n) t = (laterLineStarts n t).map fun s => (s.1 + m, s.2) := by
  induction t generalizing n with
  | nil => rfl
  | cons c t ih =>
    rw [laterLineStarts, laterLineStarts, show m + n + 1 = m + (n + 1) by omega, ih]
    split
    · simp [Nat.add_comm]
    · rfl

/-- The lines before a line feed start where they did and go on behind it; those behind it move
by its offset. -/
theorem lineStarts_append_newline (t u : Text) :
    lineStarts (t ++ '\n' :: u) =
      (lineStarts t).map (fun s => (s.1, s.2 ++ '\n' :: u)) ++
        (lineStarts u).map fun s => (s.1 + (t.length + 1), s.2) := by
  rw [lineStarts, laterLineStarts_append, laterLineStarts, if_pos rfl, lineStarts, lineStarts,
    List.map_cons, List.map_cons, ← laterLineStarts_add]
  simp

/-- A text without a line feed has one line. -/
theorem lineStarts_of_line (hl : '\n' ∉ l) : lineStarts l = [(0, l)] := by
  -- the offset changes along the text, so the induction is over all of them
  have : ∀ n, laterLineStarts n l = [] := by
    induction l with
    | nil => intro n; rfl
    | cons c l ih =>
      intro n
      rw [List.mem_cons, not_or] at hl
      rw [laterLineStarts, if_neg (Ne.symm hl.1), ih hl.2]
  rw [lineStarts, this]

theorem exists_of_mem_laterLineStarts {m n : Nat} (h : (m, u) ∈ laterLineStarts n t) :
    ∃ before, t = before ++ u ∧ m = n + before.length := by
  induction t generalizing n with
  | nil => simp [laterLineStarts] at h
  | cons c t ih =>
    -- the line starts right behind the character, or behind a later one
    have hStart : (m, u) = (n + 1, t) ∨ (m, u) ∈ laterLineStarts (n + 1) t := by
      rw [laterLineStarts] at h
      split at h
      · exact List.mem_cons.mp h
      · exact Or.inr h
    rcases hStart with hHere | hLater
    · obtain ⟨rfl, rfl⟩ := Prod.mk.inj hHere
      exact ⟨[c], rfl, rfl⟩
    · obtain ⟨before, rfl, rfl⟩ := ih hLater
      refine ⟨c :: before, rfl, ?_⟩
      rw [List.length_cons]
      omega

/-- Where a line starts, the offset is the length of what stands before it. -/
theorem exists_of_mem_lineStarts {m : Nat} (h : (m, u) ∈ lineStarts t) :
    ∃ before, t = before ++ u ∧ m = before.length := by
  rcases List.mem_cons.mp h with hFirst | hLater
  · obtain ⟨rfl, rfl⟩ := Prod.mk.inj hFirst
    exact ⟨[], rfl, rfl⟩
  · obtain ⟨before, rfl, hLength⟩ := exists_of_mem_laterLineStarts hLater
    exact ⟨before, rfl, by omega⟩

end FieldHint.Text
