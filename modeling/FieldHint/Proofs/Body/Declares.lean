import FieldHint.Proofs.Body.Row

/-!
# Rows — what a line declares

The reader of a row cuts a name off, looks for the first mark, and tries what follows it. Here it is
said without that order what a line looks like that `Declares` a field.

* `partsAtMark_untilMark` — the reader parts a text at its first mark;
* `trailer?_eq_some_iff` — what follows a type is read as a tag and a comment if it is one;
* `field?_eq_some_iff` — a line is read as a field if and only if it declares that field;
* `field?_row` — so a row that was written from its parts is read as these.

Each reader is shown to agree with its part of the grammar in both directions. The first mark is
pinned down by what does not stand before it (`PartsAtMark`).
-/

namespace FieldHint.Row

variable {t u line name gap typeExpr head tail pad : Text} {c : Char} {tag doc : Option Text}
  {f : Field}

/-! ## The first mark -/

/-- A tag or a comment starts the text. -/
def IsMarked (t : Text) : Prop := ['\x60'] <+: t ∨ Comment.mark <+: t

/-- Two texts that follow each other part at the first mark: the second starts with it, or there is
none, and no mark starts earlier. -/
structure PartsAtMark (head tail : Text) : Prop where
  marked : tail = [] ∨ IsMarked tail
  first : ∀ s, s ≠ [] → s <:+ head → ¬ IsMarked (s ++ tail)

theorem atMark_eq_true_iff : atMark t = true ↔ IsMarked t := by
  unfold IsMarked Comment.mark
  constructor
  · intro h
    unfold atMark at h
    split at h
    · exact Or.inl ⟨_, rfl⟩
    · exact Or.inr ⟨_, rfl⟩
    · cases h
  · rintro (⟨u, rfl⟩ | ⟨u, rfl⟩) <;> rfl

namespace PartsAtMark

theorem atMark (h : PartsAtMark head tail) : tail = [] ∨ Row.atMark tail = true :=
  h.marked.imp_right atMark_eq_true_iff.mpr

theorem of_suffix (h : PartsAtMark head tail) (hs : u <:+ head) : PartsAtMark u tail :=
  ⟨h.marked, fun s hne hsu => h.first s hne (hsu.trans hs)⟩

/-- What stands before the first mark holds no mark. -/
theorem unmarked (h : PartsAtMark head tail) : Unmarked head where
  no_backtick hTick := by
    obtain ⟨a, b, rfl⟩ := List.append_of_mem hTick
    exact h.first ('\x60' :: b) (by simp) (List.suffix_append _ _) (Or.inl ⟨b ++ tail, rfl⟩)
  no_comment hMark := by
    obtain ⟨a, b, rfl⟩ := hMark
    have hSuffix : Comment.mark ++ b <:+ a ++ Comment.mark ++ b := ⟨a, by simp⟩
    exact h.first (Comment.mark ++ b) (by simp [Comment.mark]) hSuffix (Or.inr ⟨b ++ tail, by simp⟩)

/-- The reader parts a text there, too. -/
theorem untilMark_fromMark (h : PartsAtMark head tail) :
    untilMark (head ++ tail) = head ∧ fromMark (head ++ tail) = tail := by
  induction head with
  | nil => exact ⟨untilMark_of_atMark h.atMark, fromMark_of_atMark h.atMark⟩
  | cons c head ih =>
    obtain ⟨hUntil, hFrom⟩ := ih (h.of_suffix (List.suffix_cons c head))
    have hNot : ¬ Row.atMark (c :: (head ++ tail)) = true := fun hMark =>
      h.first (c :: head) (by simp) List.suffix_rfl (atMark_eq_true_iff.mp hMark)
    rw [List.cons_append, untilMark, fromMark, if_neg hNot, if_neg hNot, hUntil, hFrom]
    exact ⟨rfl, rfl⟩

end PartsAtMark

theorem untilMark_append_fromMark (t : Text) : untilMark t ++ fromMark t = t := by
  induction t with
  | nil => rfl
  | cons c t ih =>
    rw [untilMark, fromMark]
    split
    · rfl
    · rw [List.cons_append, ih]

/-- Where the reader parts a text is the first mark. -/
theorem partsAtMark_untilMark (t : Text) : PartsAtMark (untilMark t) (fromMark t) := by
  induction t with
  | nil => exact ⟨Or.inl rfl, fun s hne hs => absurd (List.suffix_nil.mp hs) hne⟩
  | cons c t ih =>
    rw [untilMark, fromMark]
    split
    · next hMark =>
      exact ⟨Or.inr (atMark_eq_true_iff.mp hMark), fun s hne hs =>
        absurd (List.suffix_nil.mp hs) hne⟩
    · next hNot =>
      refine ⟨ih.marked, fun s hne hs => ?_⟩
      rcases List.suffix_cons_iff.mp hs with rfl | hs
      · rw [List.cons_append, untilMark_append_fromMark, ← atMark_eq_true_iff]
        exact hNot
      · exact ih.first s hne hs

/-- A text without a mark, and blanks, stand before the first mark. A slash at the end of the text
must not run into the mark of a comment, which would be found one character early. -/
theorem PartsAtMark.of_unmarked (ht : Unmarked t) (hPad : ∀ c ∈ pad, Text.isBlank c = true)
    (hMark : tail = [] ∨ Row.atMark tail = true)
    (hSeam : ¬ (t.getLast? = some '/' ∧ (pad ++ tail).head? = some '/')) :
    PartsAtMark (t ++ pad) tail := by
  have hPadSeam : ¬ (pad.getLast? = some '/' ∧ tail.head? = some '/') :=
    fun h => getLast?_ne_slash hPad h.1
  -- no mark straddles the seams, so the first one is that behind the padding
  have hParts := partsAtMark_untilMark (t ++ (pad ++ tail))
  rwa [untilMark_append ht hSeam, untilMark_append (.of_blank hPad) hPadSeam,
    untilMark_of_atMark hMark, List.append_nil, fromMark_append ht hSeam,
    fromMark_append (.of_blank hPad) hPadSeam, fromMark_of_atMark hMark] at hParts

/-- What holds of the two parts of a text holds of those that the reader finds. -/
theorem exists_partsAtMark_iff {p : Text → Text → Prop} :
    (∃ head tail, t = head ++ tail ∧ PartsAtMark head tail ∧ p head tail) ↔
      p (untilMark t) (fromMark t) := by
  constructor
  · rintro ⟨head, tail, rfl, hParts, hp⟩
    obtain ⟨hUntil, hFrom⟩ := hParts.untilMark_fromMark
    rwa [hUntil, hFrom]
  · intro hp
    exact ⟨_, _, (untilMark_append_fromMark t).symm, partsAtMark_untilMark t, hp⟩

/-! ## Tags and comments -/

/-- What may follow a type: perhaps a tag in backticks, and perhaps a comment. Behind the tag, only
blanks may stand otherwise. -/
inductive IsTrailer : Option Text → Option Text → Text → Prop
  | nothing : IsTrailer none none []
  | comment (said : Text) : IsTrailer none (Text.strip said).nonempty? ('/' :: '/' :: said)
  | tag {tag gap : Text} : '\x60' ∉ tag → (∀ c ∈ gap, Text.isBlank c = true) →
    IsTrailer (some tag) none ('\x60' :: (tag ++ '\x60' :: gap))
  | tagComment {tag gap : Text} (said : Text) : '\x60' ∉ tag →
    (∀ c ∈ gap, Text.isBlank c = true) →
      IsTrailer (some tag) (Text.strip said).nonempty?
        ('\x60' :: (tag ++ '\x60' :: (gap ++ '/' :: '/' :: said)))

theorem IsTrailer.atMark (h : IsTrailer tag doc tail) : tail = [] ∨ atMark tail = true := by
  cases h with
  | nothing => exact Or.inl rfl
  | comment _ | tag _ _ | tagComment _ _ _ => exact Or.inr rfl

theorem comment?_eq_some_iff : comment? t = some doc ↔
    t = [] ∧ doc = none ∨ ∃ said, t = '/' :: '/' :: said ∧ doc = (Text.strip said).nonempty? := by
  constructor
  · intro h
    unfold comment? at h
    split at h
    · exact Or.inl ⟨rfl, (Option.some.inj h).symm⟩
    · exact Or.inr ⟨_, rfl, (Option.some.inj h).symm⟩
    · cases h
  · rintro (⟨rfl, rfl⟩ | ⟨said, rfl, rfl⟩) <;> rfl

theorem trailer?_of_isTrailer (h : IsTrailer tag doc t) : trailer? t = some (tag, doc) := by
  cases h with
  | nothing => rfl
  | comment said => rfl
  | @tag tag gap hTick hGap =>
    have hEnd : Text.stripStart gap = [] := List.dropWhile_eq_nil_iff.mpr hGap
    rw [trailer?_tag hTick, hEnd]
    rfl
  | @tagComment tag gap said hTick hGap =>
    have hRest : Text.stripStart (gap ++ '/' :: '/' :: said) = '/' :: '/' :: said :=
      Text.dropWhile_run hGap (by rintro _ ⟨⟩; decide)
    rw [trailer?_tag hTick, hRest]
    rfl

/-- A tag that is closed ends at the first backtick behind the one that opens it. -/
theorem exists_tag {rest : Text} (h : u.dropWhile (· ≠ '\x60') = c :: rest) :
    ∃ tag, u = tag ++ '\x60' :: rest ∧ u.takeWhile (· ≠ '\x60') = tag ∧ '\x60' ∉ tag := by
  have hClose := List.head?_dropWhile_not (· ≠ '\x60') u
  rw [h] at hClose
  obtain rfl : c = '\x60' := by simpa using hClose
  refine ⟨_, ?_, rfl, ?_⟩
  · rw [← h, List.takeWhile_append_dropWhile]
  · intro hc
    simpa using List.mem_takeWhile_imp hc

theorem isTrailer_of_trailer? (h : trailer? t = some (tag, doc)) : IsTrailer tag doc t := by
  unfold trailer? at h
  split at h
  · next u =>
    split at h
    · cases h
    · next c rest hRest =>
      obtain ⟨tag, rfl, hTag, hTick⟩ := exists_tag hRest
      -- behind the tag there are blanks, and then a comment or nothing
      obtain ⟨gap, behind, rfl, hGap, hBehind⟩ := Text.exists_run Text.isBlank rest
      rw [hTag, Text.stripStart, Text.dropWhile_run hGap hBehind] at h
      obtain ⟨doc', hComment, hPair⟩ := Option.map_eq_some_iff.mp h
      obtain ⟨rfl, rfl⟩ := Prod.mk.inj hPair
      rcases comment?_eq_some_iff.mp hComment with ⟨rfl, rfl⟩ | ⟨said, rfl, rfl⟩
      · rw [List.append_nil]
        exact .tag hTick hGap
      · exact .tagComment said hTick hGap
  · obtain ⟨doc', hComment, hPair⟩ := Option.map_eq_some_iff.mp h
    obtain ⟨rfl, rfl⟩ := Prod.mk.inj hPair
    rcases comment?_eq_some_iff.mp hComment with ⟨rfl, rfl⟩ | ⟨said, rfl, rfl⟩
    · exact .nothing
    · exact .comment said

theorem trailer?_eq_some_iff : trailer? t = some (tag, doc) ↔ IsTrailer tag doc t :=
  ⟨isTrailer_of_trailer?, trailer?_of_isTrailer⟩

/-! ## Fields -/

/-- The line declares the field: a name, blanks, a type up to the first mark, and what may follow a
type. -/
inductive Declares : Text → Field → Prop
  | row {name gap typeText tail : Text} {tag doc : Option Text} :
    Text.IsName name → gap ≠ [] → (∀ c ∈ gap, Text.isBlank c = true) →
    PartsAtMark typeText tail → Text.strip typeText ≠ [] → IsTrailer tag doc tail →
      Declares (name ++ (gap ++ (typeText ++ tail))) ⟨name, Text.strip typeText, tag, doc⟩

theorem field?_of_declares (h : Declares line f) : field? line = some f := by
  obtain ⟨hName, hGap, hBlank, hParts, hType, hTrailer⟩ := h
  obtain ⟨g, gap, rfl⟩ := List.exists_cons_of_ne_nil hGap
  rw [List.forall_mem_cons] at hBlank
  next name typeText tail tag doc =>
  -- blanks in front of the type belong to the gap as well
  obtain ⟨lead, solid, rfl, hLead, hSolid⟩ := Text.exists_run Text.isBlank typeText
  have hStrip : Text.strip (lead ++ solid) = Text.strip solid := Text.strip_blank_append hLead
  rw [hStrip] at hType ⊢
  have hNe : solid ≠ [] := by
    rintro rfl
    exact hType rfl
  have hRest : Text.stripStart (gap ++ (lead ++ (solid ++ tail))) = solid ++ tail := by
    have hRun : ∀ c ∈ gap ++ lead, Text.isBlank c = true :=
      List.forall_mem_append.mpr ⟨hBlank.2, hLead⟩
    have hHead : ∀ c ∈ (solid ++ tail).head?, Text.isBlank c = false := by
      rw [List.head?_append_of_ne_nil _ hNe]
      exact hSolid
    rw [← List.append_assoc, Text.stripStart, Text.dropWhile_run hRun hHead]
  obtain ⟨hUntil, hFrom⟩ := (hParts.of_suffix (List.suffix_append lead solid)).untilMark_fromMark
  have hHead : ∀ c ∈ (g :: gap ++ (lead ++ solid ++ tail)).head?, Text.isWord c = false := by
    rintro _ ⟨⟩
    exact Text.isWord_of_isBlank hBlank.1
  rw [field?, Text.takeWhile_run hName.chars hHead, Text.dropWhile_run hName.chars hHead]
  simp [hName.ne_nil, hBlank.1, hRest, hUntil, hFrom, hType, trailer?_eq_some_iff.mpr hTrailer]

theorem declares_of_field? (h : field? line = some f) : Declares line f := by
  obtain ⟨name, behind, rfl, hWord, hBehind⟩ := Text.exists_run Text.isWord line
  unfold field? at h
  rw [Text.takeWhile_run hWord hBehind, Text.dropWhile_run hWord hBehind] at h
  cases behind with
  | nil => cases h
  | cons g t =>
    obtain ⟨gap, rest, rfl, hGap, hRest⟩ := Text.exists_run Text.isBlank t
    simp only [Text.stripStart, Text.dropWhile_run hGap hRest, Bool.or_eq_true, Bool.not_eq_true',
      List.isEmpty_iff] at h
    split at h
    · cases h
    · next hName =>
      obtain ⟨hNe, hBlank⟩ := not_or.mp hName
      split at h
      · cases h
      · next hType =>
        obtain ⟨⟨tag, doc⟩, hTrailer, rfl⟩ := Option.map_eq_some_iff.mp h
        -- the reader drops one blank and then all others, the grammar has one gap
        have hLine : name ++ g :: (gap ++ rest) =
            name ++ (g :: gap ++ (untilMark rest ++ fromMark rest)) := by
          rw [untilMark_append_fromMark, List.cons_append]
        rw [hLine]
        exact .row ⟨hNe, hWord⟩ (List.cons_ne_nil g gap)
          (List.forall_mem_cons.mpr ⟨Bool.eq_true_of_not_eq_false hBlank, hGap⟩)
          (partsAtMark_untilMark rest) hType (trailer?_eq_some_iff.mp hTrailer)

/-- A line is read as a field if and only if it declares that field. -/
theorem field?_eq_some_iff : field? line = some f ↔ Declares line f :=
  ⟨declares_of_field?, field?_of_declares⟩

/-- A row is read as the parts it was written from. -/
theorem field?_row (hName : name ≠ []) (hWord : ∀ c ∈ name, Text.isWord c = true)
    (hGap : gap ≠ []) (hBlank : ∀ c ∈ gap, Text.isBlank c = true)
    (hType : typeExpr ≠ []) (hStrip : Text.strip typeExpr = typeExpr)
    (hUnmarked : Unmarked typeExpr) (hPad : ∀ c ∈ pad, Text.isBlank c = true)
    (hMark : tail = [] ∨ atMark tail = true)
    (hSeam : ¬ (typeExpr.getLast? = some '/' ∧ (pad ++ tail).head? = some '/'))
    {trailer : Option Text × Option Text} (hTrailer : trailer? tail = some trailer) :
    field? (name ++ (gap ++ (typeExpr ++ (pad ++ tail)))) =
      some ⟨name, typeExpr, trailer.1, trailer.2⟩ := by
  have hPadded : Text.strip (typeExpr ++ pad) = typeExpr := by
    rw [Text.strip_append_blank hPad, hStrip]
  have hDeclares := Declares.row ⟨hName, hWord⟩ hGap hBlank
    (.of_unmarked hUnmarked hPad hMark hSeam) (by rwa [hPadded]) (trailer?_eq_some_iff.mp hTrailer)
  rw [hPadded, List.append_assoc] at hDeclares
  exact field?_of_declares hDeclares

end FieldHint.Row
