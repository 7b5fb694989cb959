import FieldHint.Proofs.Body.Layout

/-!
# Rows — the grammar of a line

The reader of a line takes one decision after the other. Here it is said without that order what a
line looks like: it `Declares` a field, it `Embeds` a type, it is a comment, or it is none of these.

* `isEmbedded_iff` — what is taken for an embedded type is one;
* `ofLine_embedded` — a line that starts with an embedded type is taken for nothing else;
* `ofLine_grammar` — every line is what the grammar says.
-/

namespace FieldHint

/-! ## Embedded types -/

namespace Body.Embedded

/-- The parts of the embedded type can be told apart, whatever its type arguments hold. -/
structure Delimited (e : Embedded) : Prop extends IsNamed e where
  qualifier_ne_nil : ∀ q ∈ e.qualifier, q ≠ []
  args : ∀ a ∈ e.args, ']' ∉ a

variable {e : Embedded}

/-! The text by its parts, from the left. -/

theorem text_of_pointer (hPointer : e.pointer = true) :
    e.text = '*' :: { e with pointer := false }.text := by
  simp [text, starText, qualifierText, argsText, hPointer]

theorem text_of_qualifier {q : Text} (hPointer : e.pointer = false)
    (hQualifier : e.qualifier = some q) :
    e.text = q ++ '.' :: { e with qualifier := none }.text := by
  simp [text, starText, qualifierText, argsText, hPointer, hQualifier]

theorem text_of_name (hPointer : e.pointer = false) (hQualifier : e.qualifier = none) :
    e.text = e.name ++ e.argsText := by
  simp [text, starText, qualifierText, hPointer, hQualifier]

/-- An embedded type holds no mark if its type arguments hold none. -/
theorem IsNamed.unmarked_text (h : e.IsNamed) (hArgs : ∀ a ∈ e.args, Row.Unmarked a) :
    Row.Unmarked e.text := by
  have hFront : Row.Unmarked (e.starText ++ e.qualifierText ++ e.name) :=
    ⟨fun hTick => absurd (h.isInert _ hTick) (by decide),
      Text.not_infix_of_not_mem (x := '/') (by decide)
        fun hSlash => absurd (h.isInert _ hSlash) (by decide)⟩
  unfold text argsText
  split
  · next a ha =>
    -- no mark reaches across a bracket
    have hOpen := hFront.append_cons (hArgs a ha) (c := '[') (by decide) (by decide)
    have hNone : Row.Unmarked [] := .of_blank (by simp)
    have hClose := hOpen.append_cons hNone (c := ']') (by decide) (by decide)
    simpa using hClose
  · simpa using hFront

/-- No slash stands at the ends of an embedded type. -/
theorem IsNamed.ends_ne_slash (h : e.IsNamed) :
    e.text.head? ≠ some '/' ∧ e.text.getLast? ≠ some '/' := by
  have hNe : e.starText ++ e.qualifierText ++ e.name ≠ [] := by simp [h.name.ne_nil]
  constructor
  · intro hSlash
    rw [text, List.head?_append_of_ne_nil _ hNe] at hSlash
    exact absurd (h.isInert _ (List.mem_of_mem_head? hSlash)) (by decide)
  · intro hSlash
    unfold text argsText at hSlash
    split at hSlash
    · rw [← List.append_assoc, List.getLast?_concat] at hSlash
      exact absurd (Option.some.inj hSlash) (by decide)
    · rw [List.append_nil] at hSlash
      exact absurd (h.isInert _ (List.mem_of_getLast? hSlash)) (by decide)

end Body.Embedded

namespace Row

variable {t line : Text} {e : Body.Embedded} {f : Field}

theorem isIndex_iff : isIndex t = true ↔ t = [] ∨ ∃ a, ']' ∉ a ∧ t = '[' :: a ++ [']'] := by
  constructor
  · intro h
    unfold isIndex at h
    split at h
    · exact Or.inl rfl
    · next u =>
      refine Or.inr ⟨u.takeWhile (· ≠ ']'), ?_, ?_⟩
      · intro hc
        simpa using List.mem_takeWhile_imp hc
      · have hClose : u.dropWhile (· ≠ ']') = [']'] := of_decide_eq_true h
        rw [List.cons_append, ← hClose, List.takeWhile_append_dropWhile]
    · cases h
  · rintro (rfl | ⟨a, ha, rfl⟩)
    · rfl
    · have hClose : (a ++ [']']).dropWhile (· ≠ ']') = [']'] :=
        Text.dropWhile_run (Text.forall_ne_of_not_mem ha) (by simp)
      rw [List.cons_append, isIndex, hClose]
      rfl

theorem head?_isIndex (h : isIndex t = true) : ∀ c ∈ t.head?, Text.isWord c = false := by
  rcases isIndex_iff.mp h with rfl | ⟨a, -, rfl⟩
  · simp
  · rintro _ ⟨⟩
    decide

theorem isIndex_argsText (h : e.Delimited) : isIndex e.argsText = true := by
  rw [isIndex_iff]
  unfold Body.Embedded.argsText
  split
  · next a ha => exact Or.inr ⟨a, h.args a ha, rfl⟩
  · exact Or.inl rfl

/-- A name with or without type arguments. -/
theorem isIndexedName_iff : isIndexedName t = true ↔
    ∃ e : Body.Embedded, e.Delimited ∧ e.pointer = false ∧ e.qualifier = none ∧ t = e.text := by
  constructor
  · intro h
    obtain ⟨name, index, rfl, hWord, hIndex⟩ := Text.exists_run Text.isWord t
    rw [isIndexedName, Text.takeWhile_run hWord hIndex, Text.dropWhile_run hWord hIndex] at h
    simp only [Bool.and_eq_true, Bool.not_eq_true', List.isEmpty_eq_false_iff] at h
    have hName : Text.IsName name := ⟨h.1, hWord⟩
    rcases isIndex_iff.mp h.2 with rfl | ⟨a, ha, rfl⟩
    · exact ⟨{ name }, ⟨⟨by simp, hName⟩, by simp, by simp⟩, rfl, rfl, rfl⟩
    · exact ⟨{ name, args := some a }, ⟨⟨by simp, hName⟩, by simp, by simpa using ha⟩, rfl, rfl,
        rfl⟩
  · rintro ⟨e, h, hPointer, hQualifier, rfl⟩
    have hHead := head?_isIndex (isIndex_argsText h)
    rw [Body.Embedded.text_of_name hPointer hQualifier, isIndexedName,
      Text.takeWhile_run h.name.chars hHead, Text.dropWhile_run h.name.chars hHead,
      isIndex_argsText h]
    simp [h.name.ne_nil]

/-- The same, perhaps with a qualifier in front. -/
theorem isTypeName_iff : isTypeName t = true ↔
    ∃ e : Body.Embedded, e.Delimited ∧ e.pointer = false ∧ t = e.text := by
  unfold isTypeName
  rw [Bool.or_eq_true, isIndexedName_iff]
  constructor
  · rintro (⟨e, h, hPointer, -, hText⟩ | h)
    · exact ⟨e, h, hPointer, hText⟩
    · obtain ⟨q, behind, rfl, hWord, hBehind⟩ := Text.exists_run Text.isWord t
      rw [Text.takeWhile_run hWord hBehind, Text.dropWhile_run hWord hBehind] at h
      simp only [Bool.and_eq_true, Bool.not_eq_true', List.isEmpty_eq_false_iff] at h
      obtain ⟨hNe, hDot⟩ := h
      split at hDot
      · obtain ⟨⟨_, _, name, args⟩, he, rfl, rfl, rfl⟩ := isIndexedName_iff.mp hDot
        refine ⟨⟨false, some q, name, args⟩, ⟨⟨?_, he.name⟩, ?_, he.args⟩, rfl, ?_⟩
        · simpa using hWord
        · simpa using hNe
        · exact (Body.Embedded.text_of_qualifier (e := ⟨false, some q, name, args⟩) rfl rfl).symm
      · cases hDot
  · rintro ⟨e, h, hPointer, rfl⟩
    cases hQualifier : e.qualifier with
    | none => exact Or.inl ⟨e, h, hPointer, hQualifier, rfl⟩
    | some q =>
      right
      have hWord := h.isWord_qualifier q hQualifier
      have hInner : isIndexedName { e with qualifier := none }.text = true :=
        isIndexedName_iff.mpr ⟨{ e with qualifier := none }, ⟨⟨by simp, h.name⟩, by simp, h.args⟩,
          hPointer, rfl, rfl⟩
      have hHead : ∀ c ∈ ('.' :: { e with qualifier := none }.text).head?,
          Text.isWord c = false := by
        rintro _ ⟨⟩
        decide
      rw [Body.Embedded.text_of_qualifier hPointer hQualifier,
        Text.takeWhile_run hWord hHead, Text.dropWhile_run hWord hHead]
      simp [h.qualifier_ne_nil q hQualifier, hInner]

theorem isTypeName_star (t : Text) : isTypeName ('*' :: t) = false := rfl

/-- What is taken for an embedded type is one: the same, perhaps behind a star. -/
theorem isEmbedded_iff :
    isEmbedded t = true ↔ ∃ e : Body.Embedded, e.Delimited ∧ t = e.text := by
  constructor
  · intro h
    unfold isEmbedded at h
    split at h
    · obtain ⟨⟨_, qualifier, name, args⟩, he, rfl, rfl⟩ := isTypeName_iff.mp h
      refine ⟨⟨true, qualifier, name, args⟩,
        ⟨⟨he.isWord_qualifier, he.name⟩, he.qualifier_ne_nil, he.args⟩, ?_⟩
      exact (Body.Embedded.text_of_pointer (e := ⟨true, qualifier, name, args⟩) rfl).symm
    · obtain ⟨e, he, -, hText⟩ := isTypeName_iff.mp h
      exact ⟨e, he, hText⟩
  · rintro ⟨e, h, rfl⟩
    cases hPointer : e.pointer with
    | true =>
      rw [Body.Embedded.text_of_pointer hPointer]
      exact isTypeName_iff.mpr ⟨{ e with pointer := false },
        ⟨⟨h.isWord_qualifier, h.name⟩, h.qualifier_ne_nil, h.args⟩, rfl, rfl⟩
    | false =>
      have hName := isTypeName_iff.mpr ⟨e, h, hPointer, rfl⟩
      unfold isEmbedded
      split
      · next t ht =>
        rw [ht, isTypeName_star] at hName
        cases hName
      · exact hName

/-! ## Lines -/

/-- What stands before the first mark of the line is an embedded type, with blanks around it. -/
def Embeds (line : Text) : Prop :=
  ∃ head tail, line = head ++ tail ∧ PartsAtMark head tail ∧
    ∃ e : Body.Embedded, e.Delimited ∧ Text.strip head = e.text

theorem embeds_iff : Embeds line ↔ isEmbedded (Text.strip (untilMark line)) = true :=
  exists_partsAtMark_iff.trans isEmbedded_iff.symm

theorem opens_iff : Comment.opens line = true ↔ Comment.mark <+: line := List.isPrefixOf_iff_prefix

/-- No line that embeds a type is taken for anything else: its type arguments may hold whatever is
no mark, and a tag and a comment may follow. -/
theorem ofLine_embedded (h : e.Delimited) (hArgs : ∀ a ∈ e.args, Unmarked a) {pad tail : Text}
    {tag doc : Option Text} (hPad : ∀ c ∈ pad, Text.isBlank c = true)
    (hTrailer : IsTrailer tag doc tail) :
    ofLine (e.text ++ (pad ++ tail)) = .skipped (e.text ++ (pad ++ tail)) .embedded := by
  have hMark := hTrailer.atMark
  obtain ⟨hHead, hLast⟩ := h.ends_ne_slash
  have hNe : e.text ≠ [] := by simp [Body.Embedded.text, h.name.ne_nil]
  have hOpens : ¬ Comment.opens (e.text ++ (pad ++ tail)) = true := by
    intro hOpens
    obtain ⟨said, hSaid⟩ := opens_iff.mp hOpens
    have hSlash := congrArg List.head? hSaid
    rw [List.head?_append_of_ne_nil _ hNe] at hSlash
    exact hHead hSlash.symm
  have hParts : PartsAtMark (e.text ++ pad) tail :=
    .of_unmarked (h.unmarked_text hArgs) hPad hMark fun hSeam => hLast hSeam.1
  have hUntil : untilMark (e.text ++ (pad ++ tail)) = e.text ++ pad := by
    rw [← List.append_assoc, hParts.untilMark_fromMark.1]
  have hEmbedded : isEmbedded (Text.strip (e.text ++ pad)) = true := by
    rw [Text.strip_append_blank hPad, h.strip_text]
    exact isEmbedded_iff.mpr ⟨e, h, rfl⟩
  rw [ofLine, if_neg hOpens, h.field?_eq_none hPad hMark, hUntil, hEmbedded]
  rfl

/-- Every line is what its grammar says. It is a comment if it starts like one. If not, it is a
field if and only if it declares that field; if it declares none, it is embedded or unrecognized,
and it is embedded if and only if it embeds a type. A line that is skipped is reported as it is. In
particular, an embedded type that a tag and a comment may follow is taken for nothing else. -/
theorem ofLine_grammar (line : Text) :
    (ofLine line = .skipped line .comment ↔ Comment.mark <+: line) ∧
    (∀ f, ofLine line = .field f ↔ ¬ Comment.mark <+: line ∧ Declares line f) ∧
    (ofLine line = .skipped line .embedded ↔
      ¬ Comment.mark <+: line ∧ (¬ ∃ f, Declares line f) ∧ Embeds line) ∧
    (ofLine line = .skipped line .unrecognized ↔
      ¬ Comment.mark <+: line ∧ (¬ ∃ f, Declares line f) ∧ ¬ Embeds line) ∧
    (∀ text reason, ofLine line = .skipped text reason → text = line) ∧
    ∀ (e : Body.Embedded) (pad tail : Text) (tag doc : Option Text),
      e.Delimited → (∀ a ∈ e.args, '\x60' ∉ a ∧ ¬ Comment.mark <:+: a) →
      (∀ c ∈ pad, Text.isBlank c = true) → IsTrailer tag doc tail →
      line = e.text ++ (pad ++ tail) → ofLine line = .skipped line .embedded := by
  have hShape : ∀ (e : Body.Embedded) (pad tail : Text) (tag doc : Option Text),
      e.Delimited → (∀ a ∈ e.args, '\x60' ∉ a ∧ ¬ Comment.mark <:+: a) →
      (∀ c ∈ pad, Text.isBlank c = true) → IsTrailer tag doc tail →
      line = e.text ++ (pad ++ tail) → ofLine line = .skipped line .embedded := by
    intro e pad tail tag doc he hArgs hPad hTrailer hLine
    rw [hLine]
    exact ofLine_embedded he (fun a ha => ⟨(hArgs a ha).1, (hArgs a ha).2⟩) hPad hTrailer
  simp only [← field?_eq_some_iff, embeds_iff, ← opens_iff]
  -- each decision of the reader settles all five parts at once
  by_cases hMark : Comment.opens line = true
  · have hRow : ofLine line = .skipped line .comment := if_pos hMark
    refine ⟨?_, ?_, ?_, ?_, ?_, hShape⟩ <;> simp [hRow, hMark]
  · cases hField : field? line with
    | some f =>
      have hRow : ofLine line = .field f := by rw [ofLine, if_neg hMark, hField]
      refine ⟨?_, ?_, ?_, ?_, ?_, hShape⟩ <;> simp [hRow, hMark]
    | none =>
      have hRow : ofLine line = .skipped line
          (if isEmbedded (Text.strip (untilMark line)) then .embedded else .unrecognized) := by
        rw [ofLine, if_neg hMark, hField]
      cases hEmbedded : isEmbedded (Text.strip (untilMark line)) with
      | true =>
        rw [hEmbedded, if_pos rfl] at hRow
        refine ⟨?_, ?_, ?_, ?_, ?_, hShape⟩ <;> simp [hRow, hMark]
      | false =>
        rw [hEmbedded, if_neg Bool.false_ne_true] at hRow
        refine ⟨?_, ?_, ?_, ?_, ?_, hShape⟩ <;> simp [hRow, hMark]

/-- The line of an embedded type whose brackets hold a comma and a lone slash, and whose tag holds
an open brace and a comment mark. -/
def embeddedLine : Text := "*p.B[a, b/]\t\x60\x7b//\x60 // c".toList

/-- The theorem at that line: it is skipped as embedded. -/
theorem ofLine_grammar_embeddedLine :
    ('\x60' ∉ ['a', ',', ' ', 'b', '/'] ∧ ¬ Comment.mark <:+: ['a', ',', ' ', 'b', '/']) ∧
      ofLine embeddedLine = .skipped embeddedLine .embedded := by
  have hArgs : '\x60' ∉ ['a', ',', ' ', 'b', '/'] ∧
      ¬ Comment.mark <:+: ['a', ',', ' ', 'b', '/'] := by decide
  refine ⟨hArgs, ?_⟩
  obtain ⟨-, -, -, -, -, hShape⟩ := ofLine_grammar embeddedLine
  have hTrailer : IsTrailer (some ['\x7b', '/', '/']) (some ['c'])
      ['\x60', '\x7b', '/', '/', '\x60', ' ', '/', '/', ' ', 'c'] :=
    .tagComment [' ', 'c'] (by decide) Text.isBlank_space
  refine hShape ⟨true, some ['p'], ['B'], some ['a', ',', ' ', 'b', '/']⟩ ['\t'] _ _ _ ?_
    (by simpa using hArgs) (List.forall_mem_singleton.mpr (by decide)) hTrailer rfl
  have hWord : ∀ c ∈ ['p'], Text.isWord c = true := List.forall_mem_singleton.mpr (by decide)
  exact ⟨⟨by simpa using hWord, by decide⟩, by simp, by simp⟩

end Row

end FieldHint
