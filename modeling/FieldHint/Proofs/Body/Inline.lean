import FieldHint.Proofs.Body.Fold
import FieldHint.Proofs.Body.Layout

/-!
# Struct bodies — inline structs

The type of a field may be a struct that is written in place, on one line or over several, and its
fields may have such types themselves. `Rows` are the bodies that are laid out so. The splitter
must not part an inline struct, and the row that it makes must still show what stands around it:

* `Rows.glides` — inside braces, rows without tags are read in one piece, to any depth;
* `exists_tidy_inline` — the row of an inline struct is tidied up to its name, a type without
  marks, and its own tag and comment;
* `Field.names_ofBody` — so every field that is declared outermost is found under its name, with
  its tag and its comment.

The outermost rows may carry tags, those inside an inline struct may not: the type on a row ends at
the first tag, wherever that stands. `Field.loses_inline` is a body that loses a field so.
-/

namespace FieldHint.Body

/-! ## Rows in place -/

/-- A struct type that is written in place, with what stands between its braces. -/
def inlineType (gap inner : Text) : Text :=
  Header.structKeyword ++ (gap ++ '{' :: (inner ++ ['}']))

/-- Whether a row carries a tag. -/
def Item.isTagged : Item → Bool
  | .field f _ => f.tag.isSome
  | .embedded _ tag _ _ => tag.isSome
  | _ => false

mutual

/-- A row with the field that it declares, if any, and whether it ends in a comment. It is one that
a layout may hold, or a field with an inline struct for its type, whose lines end with line feeds.
A row only carries a tag if `tags` says so, and one in an inline struct if `innerTags` does. -/
inductive IsRow (innerTags : Bool) : (tags : Bool) → Option Field → (commented : Bool) → Text → Prop
  -- a plain field, an embedded type, a comment, or nothing
  | item {tags : Bool} {i : Item} (wellFormed : i.WellFormed)
      (tagged : i.isTagged = true → tags = true) :
      IsRow innerTags tags i.field? i.isCommented i.text
  -- inside the braces, the last row must not end in a comment, which would hide the closing one
  | inline {tags : Bool} {f : Field} {s : Spacing} {gap inner : Text} {fields : List Field}
      (framed : f.Framed) (spaced : s.WellFormed) (padded : gap.IsPadding)
      (tagged : f.tag.isSome = true → tags = true) (type_eq : f.typeExpr = inlineType gap inner)
      (rows : Rows innerTags innerTags fields false inner)
      (lined : Text.isLined (f.spaced s) = true) :
      IsRow innerTags tags (some f) f.doc.isSome (f.spaced s)

/-- Rows with the fields that they declare, in order, and whether the last one ends in a comment. A
line feed parts two rows, or a semicolon where there is no comment. -/
inductive Rows (innerTags : Bool) : (tags : Bool) → List Field → (commented : Bool) → Text → Prop
  | last {tags commented : Bool} {f : Option Field} {t : Text}
      (row : IsRow innerTags tags f commented t) : Rows innerTags tags f.toList commented t
  | row {tags commented commented' : Bool} {f : Option Field} {fields : List Field} {t u : Text}
      {c : Char} (row : IsRow innerTags tags f commented t)
      (ends : c = '\n' ∨ c = ';' ∧ commented = false)
      (rows : Rows innerTags tags fields commented' u) :
      Rows innerTags tags (f.toList ++ fields) commented' (t ++ c :: u)

end

/-! ## Reading rows inside braces -/

namespace Scan

variable {s s' : Scan} {t u : Text} {c : Char} {d : Int} {m : Mode}

theorem Glides.mode_ne (h : Glides s t s') : s'.mode ≠ .tag := by
  have hEnd := h.tagless t List.prefix_rfl
  rwa [h.passes.run_eq] at hEnd

/-- Neither text without a backtick nor a comment behind it holds a tag. -/
theorem tagless_comment (hs : s.mode ≠ .tag) (ht : '\x60' ∉ t) (hu : '\n' ∉ u) :
    s.Tagless (t ++ '/' :: '/' :: u) := by
  have hFront : s.Tagless (t ++ Comment.mark) :=
    tagless_of_no_backtick hs (by simp [Comment.mark, ht])
  have hMode : (s.run (t ++ Comment.mark)).mode = .comment := by
    have ht := hFront t (List.prefix_append t Comment.mark)
    rw [run_append]
    exact mode_run_mark ht
  have hSplit : t ++ '/' :: '/' :: u = t ++ Comment.mark ++ u := by simp [Comment.mark]
  rw [hSplit]
  -- behind the mark, the scan stands in the comment whatever it came from
  refine hFront.append ?_
  generalize s.run (t ++ Comment.mark) = s' at hMode
  obtain ⟨m, d⟩ := s'
  obtain rfl : m = .comment := hMode
  exact (glides_in_comment hu).tagless

/-- Inside braces, nothing parts two rows. -/
theorem glides_separator (hd : 0 < d) (hm : m ≠ .tag)
    (hc : c = '\n' ∨ c = ';' ∧ m.isCode = true) : Glides ⟨m, d⟩ [c] ⟨.code, d⟩ := by
  have hSplits : splitsAt ⟨m, d⟩ c = false := by
    have hOpen : ¬ d ≤ 0 := by omega
    simp [splitsAt, hOpen]
  have hTick : '\x60' ∉ [c] := by
    rcases hc with rfl | ⟨rfl, -⟩ <;> decide
  refine .of_passes (.char hSplits ?_) hm hTick
  rcases hc with rfl | ⟨rfl, hCode⟩
  · exact step_newline m d
  · cases m <;> simp_all [step, weight, Mode.next, Mode.entered, Mode.isCode]

/-- The braces of an inline struct keep what stands between them together. -/
theorem glides_inline {gap inner : Text} (hGap : gap.IsPadding) (hm : m.isCode = true)
    (hInner : Glides ⟨.code, d + 1⟩ inner ⟨m, d + 1⟩) :
    Glides ⟨.code, d⟩ (inlineType gap inner) ⟨.code, d⟩ := by
  have hKeyword : Glides ⟨.code, d⟩ Header.structKeyword ⟨.code, d⟩ :=
    .of_passes passes_structKeyword (by simp) (by decide)
  have hGapGlides : Glides ⟨.code, d⟩ gap ⟨.code, d⟩ :=
    .of_passes (passes_indent hGap) (by simp) (hGap.not_mem (by decide))
  -- the two braces cancel out
  have hOpen : Glides ⟨.code, d⟩ ['{'] ⟨.code, d + 1⟩ :=
    .of_passes (passes_open rfl) (by simp) (by decide)
  have hClose : Glides ⟨m, d + 1⟩ ['}'] ⟨.code, d⟩ :=
    .of_passes (passes_close hm) hInner.mode_ne (by decide)
  exact hKeyword.append (hGapGlides.append (hOpen.append (hInner.append hClose)))

end Scan

/-- A row without a tag of its own holds none, if its first part holds none. -/
theorem glides_row {s : Spacing} {head : Text} {doc : Option Text} {d : Int} {m : Mode}
    (hs : s.WellFormed) (hDoc : ∀ t ∈ doc, '\n' ∉ t) (hm : m.isCode = true)
    (hHead : Scan.Glides ⟨.code, d⟩ head ⟨m, d⟩) :
    ∃ m', Scan.Glides ⟨.code, d⟩ (s.row head none doc) ⟨m', d⟩ ∧
      (doc.isSome = false → m'.isCode = true) := by
  have hTick : ∀ t ∈ (none : Option Text), '\x60' ∉ t := by simp
  have hTag : ∀ t ∈ (none : Option Text), '\n' ∉ t := by simp
  obtain ⟨m', hPasses, hCode⟩ := Spacing.passes_row hs hTick hTag hDoc hm hHead.passes
  refine ⟨m', ⟨hPasses, ?_⟩, fun hNone => hCode (by simpa using hNone)⟩
  -- part by part: the indent, the first part, and the comment with what stands before it
  have hBefore : Scan.Tagless ⟨.code, d⟩ s.before :=
    Scan.tagless_of_no_backtick (by simp) (hs.before.not_mem (by decide))
  have hSplit : s.row head none doc = s.before ++ (head ++ (s.docText doc ++ s.after)) := by
    simp [Spacing.row, Spacing.trailer, Spacing.tagText]
  rw [hSplit]
  refine hBefore.append ?_
  rw [(Scan.passes_indent hs.before).run_eq]
  refine hHead.tagless.append ?_
  rw [hHead.passes.run_eq]
  -- the comment may hold backticks, and goes on to the end of the row
  cases doc with
  | none => exact Scan.tagless_of_no_backtick hHead.mode_ne (hs.after.not_mem (by decide))
  | some t =>
    have hLine : '\n' ∉ s.insideDoc ++ t ++ s.after := by
      simp [hs.insideDoc.no_newline, hDoc t rfl, hs.after.no_newline]
    have hComment : s.docText (some t) ++ s.after =
        s.beforeDoc ++ '/' :: '/' :: (s.insideDoc ++ t ++ s.after) := by
      simp [Spacing.docText]
    rw [hComment]
    exact Scan.tagless_comment hHead.mode_ne (hs.beforeDoc.not_mem (by decide)) hLine

/-- An untagged row of a layout. -/
theorem Item.glides {i : Item} {d : Int} (h : i.WellFormed) (hTag : i.isTagged = false)
    (hd : 0 ≤ d) :
    ∃ m, Scan.Glides ⟨.code, d⟩ i.text ⟨m, d⟩ ∧ (i.isCommented = false → m.isCode = true) := by
  cases i with
  | field f s =>
    obtain ⟨hf, hs, -⟩ := h
    have hNone : f.tag = none := by simpa [isTagged] using hTag
    have hTick : '\x60' ∉ f.name ++ (s.afterName ++ f.typeExpr) := by
      simp [hf.name.not_mem (c := '\x60') (by decide),
        hs.afterName.2.not_mem (c := '\x60') (by decide), hf.bare_type.no_backtick]
    rw [text, Field.spaced, hNone]
    exact glides_row hs hf.doc_line (Text.isCode_endMode (M := Mode) _)
      (.of_passes (hf.passes_head hs hd) (by simp) hTick)
  | embedded e tag doc s =>
    obtain ⟨he, hs, -, hDoc⟩ := h
    obtain rfl : tag = none := by simpa [isTagged] using hTag
    exact glides_row hs (fun t ht => (hDoc t ht).2.2) rfl
      (.of_passes (he.passes_text hd) (by simp) he.no_backtick)
  | comment indent said =>
    have hIndent : '\x60' ∉ indent := h.1.not_mem (by decide)
    refine ⟨.comment, ⟨(Scan.passes_indent h.1).append (Scan.passes_comment h.2 rfl), ?_⟩,
      by simp [isCommented]⟩
    exact Scan.tagless_comment (by simp) hIndent h.2
  | blank pad =>
    exact ⟨.code, .of_passes (Scan.passes_indent h) (by simp)
      (Text.IsPadding.not_mem h (by decide)), fun _ => rfl⟩

/-- The first part of a row with an inline struct. -/
theorem glides_head {f : Field} {s : Spacing} {gap inner : Text} {d : Int} {m : Mode}
    (hf : f.Framed) (hs : s.WellFormed) (hGap : gap.IsPadding)
    (hType : f.typeExpr = inlineType gap inner) (hm : m.isCode = true)
    (hInner : Scan.Glides ⟨.code, d + 1⟩ inner ⟨m, d + 1⟩) :
    Scan.Glides ⟨.code, d⟩ (f.name ++ (s.afterName ++ f.typeExpr)) ⟨.code, d⟩ := by
  have hName : Scan.Glides ⟨.code, d⟩ f.name ⟨.code, d⟩ :=
    .of_passes hf.passes_name (by simp) (hf.name.not_mem (by decide))
  have hAfter : Scan.Glides ⟨.code, d⟩ s.afterName ⟨.code, d⟩ :=
    .of_passes (Scan.passes_gap hs.afterName rfl) (by simp) (hs.afterName.2.not_mem (by decide))
  rw [hType]
  exact hName.append (hAfter.append (Scan.glides_inline hGap hm hInner))

mutual

/-- Without tags in it, a row is read in one piece, and no tag is come upon. -/
theorem IsRow.glides {tags commented : Bool} {f : Option Field} {t : Text} {d : Int}
    (hTags : tags = false) (hd : 0 ≤ d) : IsRow false tags f commented t →
      ∃ m, Scan.Glides ⟨.code, d⟩ t ⟨m, d⟩ ∧ (commented = false → m.isCode = true)
  | .item hi hTag => Item.glides hi (by simpa [hTags] using hTag) hd
  | .inline (f := f) hf hs hGap hTag hType hInner _ => by
    obtain ⟨m, hGlides, hCode⟩ := hInner.glides (d := d + 1) rfl (by omega)
    have hNone : f.tag = none := by simpa [hTags] using hTag
    rw [Field.spaced, hNone]
    exact glides_row hs hf.doc_line rfl
      (glides_head hf hs hGap hType (hCode rfl) hGlides)

/-- Inside braces, so are rows that follow each other. -/
theorem Rows.glides {tags commented : Bool} {fields : List Field} {t : Text} {d : Int}
    (hTags : tags = false) (hd : 0 < d) : Rows false tags fields commented t →
      ∃ m, Scan.Glides ⟨.code, d⟩ t ⟨m, d⟩ ∧ (commented = false → m.isCode = true)
  | .last hRow => hRow.glides hTags hd.le
  | .row (t := t) (c := c) hRow hc hRest => by
    obtain ⟨m, hFirst, hCode⟩ := hRow.glides hTags hd.le
    obtain ⟨m', hGlides, hCode'⟩ := hRest.glides hTags hd
    -- at this depth, the separator is a character like any other
    have hSeparator : Scan.Glides ⟨m, d⟩ [c] ⟨.code, d⟩ :=
      Scan.glides_separator hd hFirst.mode_ne (hc.imp_right (And.imp_right hCode))
    exact ⟨m', hFirst.append (hSeparator.append hGlides), hCode'⟩

end

/-! ## Tidying up the row of an inline struct -/

section

variable {f : Field} {s : Spacing} {gap inner : Text}

/-- Behind the trailer, there are only blanks. -/
theorem stripEnd_trailer {tag doc : Option Text} (hs : s.WellFormed)
    (hDoc : ∀ t ∈ doc, t ≠ [] ∧ Text.strip t = t) :
    Text.stripEnd (s.trailer tag doc ++ s.after) = s.trailer tag doc := by
  have hLast : ∀ c ∈ (s.trailer tag doc).getLast?, Text.isBlank c = false :=
    Spacing.getLast?_trailer hDoc
  rw [Text.stripEnd_append_blank hs.after.isBlank, Text.stripEnd_eq_self hLast]

theorem getLast?_inlineType (gap inner : Text) : (inlineType gap inner).getLast? = some '}' := by
  have hSplit : inlineType gap inner = Header.structKeyword ++ gap ++ '{' :: inner ++ ['}'] := by
    simp [inlineType]
  rw [hSplit, List.getLast?_concat]

theorem strip_inlineType (gap inner : Text) :
    Text.strip (inlineType gap inner) = inlineType gap inner := by
  rw [Text.strip_eq_self_iff, getLast?_inlineType]
  constructor
  · rintro _ ⟨⟩
    decide
  · rintro _ ⟨⟩
    decide

/-- Over several lines, the row is folded to its name, a type without marks, and its trailer. -/
theorem exists_fold_inline {l t : Text} {d : Int} (hf : f.Framed) (hs : s.WellFormed)
    (hGap : gap.IsPadding) (hl : '\n' ∉ l) (hType : f.typeExpr = inlineType gap (l ++ '\n' :: t))
    (hLined : Text.isLined (f.spaced s) = true)
    (hHead : Scan.Glides ⟨.code, d⟩ (f.name ++ (s.afterName ++ f.typeExpr)) ⟨.code, d⟩) :
    ∃ v, fold (f.spaced s) = f.name ++ (s.afterName ++ v) ++ s.trailer f.tag f.doc ∧
      v.getLast? = some '}' ∧ Text.strip v = v ∧ Row.Unmarked v := by
  -- the first line, and the others up to the brace that closes the type
  have hSplit : f.spaced s = s.before ++ (f.name ++ s.afterName) ++
      's' :: (['t', 'r', 'u', 'c', 't'] ++ (gap ++ '{' :: l)) ++ '\n' :: (t ++ ['}']) ++
        (s.trailer f.tag f.doc ++ s.after) := by
    simp [Field.spaced, Spacing.row, hType, inlineType, Header.structKeyword]
  have hWhole : Scan.Glides ⟨.code, d⟩ (s.before ++ (f.name ++ s.afterName) ++
      's' :: (['t', 'r', 'u', 'c', 't'] ++ (gap ++ '{' :: l)) ++ '\n' :: (t ++ ['}']))
      ⟨.code, d⟩ := by
    have hBefore : Scan.Glides ⟨.code, d⟩ s.before ⟨.code, d⟩ :=
      .of_passes (Scan.passes_indent hs.before) (by simp) (hs.before.not_mem (by decide))
    have hJoined := hBefore.append hHead
    simpa [hType, inlineType, Header.structKeyword] using hJoined
  -- no comment starts before the keyword, so the first line is only cut behind it
  have hSlash : '/' ∉ s.before ++ (f.name ++ s.afterName) := by
    simp [hs.before.not_mem (c := '/') (by decide), hf.name.not_mem (c := '/') (by decide),
      hs.afterName.2.not_mem (c := '/') (by decide)]
  have hMark : ¬ Comment.mark <:+: s.before ++ (f.name ++ s.afterName) :=
    Text.not_infix_of_not_mem (by decide) hSlash
  have hSolid : ∀ c ∈ (f.name ++ s.afterName).head?, Text.isBlank c = false := by
    intro c hc
    rw [List.head?_append_of_ne_nil _ hf.name.ne_nil] at hc
    exact hf.name.head_solid c hc
  have hFirst : '\n' ∉ s.before ++ (f.name ++ s.afterName) ++
      's' :: (['t', 'r', 'u', 'c', 't'] ++ (gap ++ '{' :: l)) := by
    simp [hs.before.no_newline, hf.name.not_mem (c := '\n') (by decide),
      hs.afterName.2.no_newline, hGap.no_newline, hl]
  have hTrailer : '\n' ∉ s.trailer f.tag f.doc ++ s.after := by
    have hNone := Spacing.no_newline_trailer hs hf.tag_line hf.doc_line
    simp [hNone, hs.after.no_newline]
  have hCode : (Scan.run ⟨.code, d⟩ (s.before ++ (f.name ++ s.afterName) ++
      's' :: (['t', 'r', 'u', 'c', 't'] ++ (gap ++ '{' :: l)) ++
        '\n' :: (t ++ ['}']))).mode.isCode = true := by
    rw [hWhole.passes.run_eq]
    rfl
  rw [hSplit] at hLined ⊢
  obtain ⟨v, hv, hEnd, hStrip, hUnmarked⟩ := exists_fold hs.before.isBlank hSolid
    (by simp [hf.name.ne_nil]) hMark (by decide) (by decide) hFirst hWhole.tagless hCode
    List.getLast?_concat hLined hTrailer
  rw [stripEnd_trailer hs hf.doc] at hv
  exact ⟨v, by rw [hv]; simp, hEnd, hStrip, hUnmarked⟩

/-- However it is laid out, the row is tidied up to its name, a type without marks, and its
trailer. -/
theorem exists_tidy_inline {d : Int} (hf : f.Framed) (hs : s.WellFormed) (hGap : gap.IsPadding)
    (hType : f.typeExpr = inlineType gap inner) (hLined : Text.isLined (f.spaced s) = true)
    (hHead : Scan.Glides ⟨.code, d⟩ (f.name ++ (s.afterName ++ f.typeExpr)) ⟨.code, d⟩) :
    ∃ v, tidy (f.spaced s) = f.name ++ (s.afterName ++ v) ++ s.trailer f.tag f.doc ∧
      v.getLast? = some '}' ∧ Text.strip v = v ∧ Row.Unmarked v := by
  have hLast : f.typeExpr.getLast? = some '}' := hType ▸ getLast?_inlineType gap inner
  have hTyped : f.Typed := by
    refine ⟨?_, hType ▸ strip_inlineType gap inner⟩
    intro hNil
    simp [hNil] at hLast
  -- only what stands between the braces may hold a line feed
  by_cases hFeed : '\n' ∈ inner
  · have hFold : tidy (f.spaced s) = fold (f.spaced s) := by
      have hKept : '\n' ∈ Text.strip (f.spaced s) := by
        rw [hf.strip_spaced hs hTyped, hType, inlineType]
        simp [hFeed]
      rw [tidy, if_pos hKept]
    obtain ⟨l, t, rfl, hl⟩ := List.eq_append_cons_of_mem hFeed
    rw [hFold]
    exact exists_fold_inline hf hs hGap hl hType hLined hHead
  · -- on one line the type is kept, and the scan has found no mark in it
    have hLine : '\n' ∉ f.typeExpr := by
      simp [hType, inlineType, Header.structKeyword, hGap.no_newline, hFeed]
    have hHeadLine : '\n' ∉ f.name ++ (s.afterName ++ f.typeExpr) := by
      simp [hf.name.not_mem (c := '\n') (by decide), hs.afterName.2.no_newline, hLine]
    have hUnmarked := Scan.unmarked_of_isCode hHeadLine hHead.tagless (by
      rw [hHead.passes.run_eq]
      rfl)
    rw [← List.append_assoc] at hUnmarked
    exact ⟨f.typeExpr, hf.tidy_spaced hs hTyped hLine, hLast, hTyped.strip_type,
      hUnmarked.of_isInfix (List.suffix_append _ _).isInfix⟩

end

end FieldHint.Body

namespace FieldHint

/-- What a row says of a field besides its type. -/
def Field.outline (f : Field) : Text × Option Text × Option Text := (f.name, f.tag, f.doc)

namespace Body

variable {tags commented : Bool} {f : Option Field} {t : Text}

/-- The splitter reads a row in one piece, whatever tag it carries itself. -/
theorem IsRow.passes (h : IsRow false tags f commented t) :
    ∃ m, Scan.Passes {} t ⟨m, 0⟩ ∧ (commented = false → m.isCode = true) := by
  cases h with
  | item hi hTag => exact Item.passes hi le_rfl
  | inline hf hs hGap hTag hType hInner hLined =>
    obtain ⟨m, hGlides, hCode⟩ := hInner.glides (d := 1) rfl one_pos
    have hHead := glides_head (d := 0) hf hs hGap hType (hCode rfl) hGlides
    obtain ⟨m', hPasses, hCode'⟩ :=
      Spacing.passes_row hs hf.tag hf.tag_line hf.doc_line rfl hHead.passes
    exact ⟨m', hPasses, fun hNone => hCode' (by simpa using hNone)⟩

/-- The piece that a row makes is read as its field, up to the type, or as none. -/
theorem IsRow.outline_ofLine (h : IsRow false tags f commented t) :
    (Row.ofLine (tidy t)).toField?.map Field.outline = f.map Field.outline := by
  cases h with
  | item hi hTag => rw [Item.toField?_ofLine hi]
  | @inline _ g s gap inner fields hf hs hGap hTag hType hInner hLined =>
    obtain ⟨m, hGlides, hCode⟩ := hInner.glides (d := 1) rfl one_pos
    have hHead := glides_head (d := 0) hf hs hGap hType (hCode rfl) hGlides
    obtain ⟨v, hTidy, hLast, hStrip, hUnmarked⟩ := exists_tidy_inline hf hs hGap hType hLined hHead
    -- the row reads as that of the field with the folded type
    have hApart : s.Apart v g.tag g.doc := by
      rintro ⟨hSlash, -⟩
      rw [hLast] at hSlash
      exact absurd hSlash (by decide)
    have hne : v ≠ [] := by
      rintro rfl
      simp at hLast
    have hDelimited : Field.Delimited { g with typeExpr := v } :=
      { hf with type_ne_nil := hne, strip_type := hStrip, unmarked_type := hUnmarked }
    have hRead : Row.ofLine (tidy (g.spaced s)) = .field { g with typeExpr := v } := by
      rw [hTidy]
      exact Spacing.ofLine_row hs hDelimited hApart
    rw [hRead]
    rfl

/-- Rows that follow each other are read as their fields, up to the types. -/
theorem Rows.outline_ofBody {tags commented : Bool} {fields : List Field} {t : Text} :
    Rows false tags fields commented t →
    (Field.ofBody t).map Field.outline = fields.map Field.outline
  | .last hRow => by
    obtain ⟨m, hPasses, -⟩ := hRow.passes
    have hOutline := hRow.outline_ofLine
    rw [Field.ofBody_of_passes hPasses, ← Option.toList_map, ← Option.toList_map, hOutline]
  | .row hRow hc hRest => by
    obtain ⟨m, hPasses, hCode⟩ := hRow.passes
    have hOutline := hRow.outline_ofLine
    have hEnds := hc.imp_right (And.imp_right hCode)
    rw [Field.ofBody_append_of_passes hPasses hEnds, List.map_append, List.map_append,
      ← Option.toList_map, ← Option.toList_map, hOutline, hRest.outline_ofBody]

end Body

namespace Field

/-- Every field that is declared outermost is found, in order, with its tag and its comment, however
deep inline structs are nested in its type and over however many lines they are laid out. -/
theorem names_ofBody {tags commented : Bool} {fields : List Field} {body : Text}
    (h : Body.Rows false tags fields commented body) :
    (ofBody body).map name = fields.map name ∧ (ofBody body).map tag = fields.map tag ∧
      (ofBody body).map doc = fields.map doc := by
  have hOutline := h.outline_ofBody
  have hPart : ∀ {α : Type} (part : Text × Option Text × Option Text → α),
      (ofBody body).map (part ∘ outline) = fields.map (part ∘ outline) := by
    intro α part
    rw [← List.map_map, ← List.map_map, hOutline]
  exact ⟨hPart fun o => o.1, hPart fun o => o.2.1, hPart fun o => o.2.2⟩

/-- A field with a struct on one line, and a comment that holds a backtick and a brace. -/
def innerInline : Field :=
  ⟨['J'], Body.inlineType [] ['X', ' ', 'T', ';', 'Y', ' ', 'U'], none, some ['\x60', '}']⟩

/-- That field in a struct over several lines, and behind it a tag that holds a brace. -/
def nestedInline : Field :=
  ⟨['I'], Body.inlineType [' '] ('\n' :: (innerInline.spaced { after := ['\r'] } ++ ['\n'])),
    some ['{'], some ['d']⟩

/-- The theorem at a struct in a struct. -/
theorem names_ofBody_nested :
    Body.Rows false true [nestedInline, ⟨['K'], ['V'], none, none⟩] false
        (nestedInline.spaced {} ++ '\n' :: ['K', ' ', 'V']) ∧
      (ofBody (nestedInline.spaced {} ++ '\n' :: ['K', ' ', 'V'])).map name = [['I'], ['K']] := by
  have hSingle := Spacing.wellFormed_single
  have hPlain : ∀ {n t : Char} (tags : Bool), Text.IsName [n] → Text.IsName [t] →
      Body.IsRow false tags (some ⟨[n], [t], none, none⟩) false [n, ' ', t] := by
    intro n t tags hn ht
    have hField : WellFormed ⟨[n], [t], none, none⟩ := wellFormed_of_isName hn ht
    exact .item (i := .field ⟨[n], [t], none, none⟩ {})
      ⟨hField, hSingle, Spacing.apart_single _ _ _⟩ (by simp [Body.Item.isTagged])
  have hBlank : Body.IsRow false false none false [] :=
    .item (i := .blank []) Text.isPadding_nil (by simp [Body.Item.isTagged])
  -- from the inside out
  have hRows : Body.Rows false false
      [⟨['X'], ['T'], none, none⟩, ⟨['Y'], ['U'], none, none⟩] false
      ['X', ' ', 'T', ';', 'Y', ' ', 'U'] :=
    .row (hPlain false (by decide) (by decide)) (Or.inr ⟨rfl, rfl⟩)
      (.last (hPlain false (by decide) (by decide)))
  have hInner : Body.IsRow false false (some innerInline) true
      (innerInline.spaced { after := ['\r'] }) := by
    have hSpacing : Spacing.WellFormed { after := ['\r'] } :=
      { hSingle with after := List.forall_mem_singleton.mpr (by decide) }
    have hFramed : innerInline.Framed := by
      refine ⟨⟨by decide, by simp [innerInline], ?_⟩, by simp [innerInline], ?_⟩
      · rintro _ ⟨⟩
        decide
      · rintro _ ⟨⟩
        decide
    exact .inline hFramed hSpacing Text.isPadding_nil (by simp [innerInline]) rfl hRows rfl
  have hBody := Body.Rows.row hBlank (Or.inl rfl) (.row hInner (Or.inl rfl) (.last hBlank))
  have hOuter : Body.IsRow false true (some nestedInline) true (nestedInline.spaced {}) := by
    have hFramed : nestedInline.Framed := by
      refine ⟨⟨by decide, ?_, ?_⟩, ?_, ?_⟩
      · rintro _ ⟨⟩
        decide
      · rintro _ ⟨⟩
        decide
      · rintro _ ⟨⟩
        decide
      · rintro _ ⟨⟩
        decide
    exact .inline hFramed hSingle Text.isGap_space.2 (fun _ => rfl) rfl hBody rfl
  have hLast : Body.IsRow false true (some ⟨['K'], ['V'], none, none⟩) false ['K', ' ', 'V'] :=
    hPlain true (by decide) (by decide)
  have hWhole := Body.Rows.row hOuter (Or.inl rfl) (.last hLast)
  exact ⟨hWhole, (names_ofBody hWhole).1⟩

/-- A field in the inline struct has a tag. -/
def taggedInline : Field :=
  ⟨['I'], Body.inlineType [] ['X', ' ', 'T', ' ', '\x60', 'x', '\x60'], none, none⟩

/-- The row of a field is read up to the first tag, so one in an inline struct hides the field that
the struct is the type of. -/
theorem loses_inline :
    Body.Rows true true [taggedInline] false (taggedInline.spaced {}) ∧
      (ofBody (taggedInline.spaced {})).map name ≠ [taggedInline].map name := by
  have hSingle := Spacing.wellFormed_single
  have hInner : WellFormed ⟨['X'], ['T'], some ['x'], none⟩ := by
    refine ⟨⟨⟨by decide, ?_, by simp⟩, ?_, by simp⟩, ⟨by decide, by decide⟩, by decide, by decide⟩
    · rintro _ ⟨⟩
      decide
    · rintro _ ⟨⟩
      decide
  have hRow : Body.IsRow true true (some ⟨['X'], ['T'], some ['x'], none⟩) false
      ['X', ' ', 'T', ' ', '\x60', 'x', '\x60'] :=
    .item (i := .field ⟨['X'], ['T'], some ['x'], none⟩ {})
      ⟨hInner, hSingle, Spacing.apart_single _ _ _⟩ (fun _ => rfl)
  have hFramed : taggedInline.Framed :=
    ⟨⟨by decide, by simp [taggedInline], by simp [taggedInline]⟩, by simp [taggedInline],
      by simp [taggedInline]⟩
  refine ⟨.last (.inline hFramed hSingle Text.isPadding_nil (fun _ => rfl) rfl (.last hRow)
    rfl), ?_⟩
  decide

end Field

end FieldHint
