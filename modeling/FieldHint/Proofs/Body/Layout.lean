import FieldHint.Proofs.Body.OneLine
import FieldHint.Proofs.Body.Parts
import FieldHint.Proofs.Body.Spacing

/-!
# Struct bodies — laid out at will

A body need not be one field a line. Fields may be spaced in any way, several may share a line with
semicolons between them, and blank lines, comments and embedded types may stand among them. `Item`
is what a row holds, `layout` is a body of such rows.

* `Item.passes` — the splitter reads each row in one piece;
* `Item.toField?_ofLine` — the piece is the field on the row, or declares none;
* `Field.ofBody_layout` — so a body is read as the fields laid out in it, in order.
-/

namespace FieldHint.Body

/-! ## Embedded types -/

/-- An embedded type: a name, perhaps behind a star and a qualifier, perhaps with type arguments. -/
structure Embedded where
  pointer : Bool := false
  qualifier : Option Text := none
  name : Text
  args : Option Text := none

namespace Embedded

/-- A star in front of the type it points to. -/
def starText (e : Embedded) : Text := if e.pointer then ['*'] else []

/-- The qualifier with its dot. -/
def qualifierText (e : Embedded) : Text :=
  match e.qualifier with
  | some q => q ++ ['.']
  | none => []

/-- The type arguments in their brackets. -/
def argsText (e : Embedded) : Text :=
  match e.args with
  | some a => '[' :: a ++ [']']
  | none => []

/-- The embedded type as it is written. -/
def text (e : Embedded) : Text := e.starText ++ e.qualifierText ++ e.name ++ e.argsText

/-- Qualifier and name are words. -/
structure IsNamed (e : Embedded) : Prop where
  isWord_qualifier : ∀ q ∈ e.qualifier, ∀ c ∈ q, Text.isWord c = true
  name : Text.IsName e.name

/-- The type arguments close the braces that they open, too. -/
structure WellFormed (e : Embedded) : Prop extends IsNamed e where
  args : ∀ a ∈ e.args, Scan.Bare a ∧ Brace.Balanced a

variable {e : Embedded}

/-- The text in front of the type arguments is taken as it is. -/
theorem IsNamed.isInert (h : e.IsNamed) :
    ∀ c ∈ e.starText ++ e.qualifierText ++ e.name, Scan.IsInert c := by
  intro c hc
  rw [List.mem_append, List.mem_append] at hc
  rcases hc with (hc | hc) | hc
  · have hStar : c = '*' := by
      unfold starText at hc
      split at hc <;> simp_all
    rw [hStar]
    decide
  · unfold qualifierText at hc
    split at hc
    · next q hq =>
      rcases List.mem_append.mp hc with hc | hc
      · exact Scan.isInert_of_isWord (h.isWord_qualifier q hq c hc)
      · rw [List.mem_singleton.mp hc]
        decide
    · simp at hc
  · exact Scan.isInert_of_isWord (h.name.chars c hc)

theorem WellFormed.passes_text (h : e.WellFormed) {d : Int} (hd : 0 ≤ d) :
    Scan.Passes ⟨.code, d⟩ e.text ⟨.code, d⟩ := by
  have hFront : Scan.Passes ⟨.code, d⟩ (e.starText ++ e.qualifierText ++ e.name) ⟨.code, d⟩ :=
    Scan.passes_inert (by simp [h.name.ne_nil]) h.isInert rfl
  refine hFront.append ?_
  unfold argsText
  split
  · next a ha =>
    obtain ⟨hBare, hBalanced⟩ := h.args a ha
    have hBracket : ∀ {c : Char}, c ∈ ['[', ']'] → ∀ x ∈ [c], Scan.IsInert x := by
      intro c hc x hx
      rw [List.mem_singleton.mp hx]
      simp only [List.mem_cons, List.not_mem_nil, or_false] at hc
      rcases hc with rfl | rfl <;> decide
    have hOpen : Scan.Passes ⟨.code, d⟩ ['['] ⟨.code, d⟩ :=
      Scan.passes_inert (by simp) (hBracket (by simp)) rfl
    have hClose : Scan.Passes ⟨Text.endMode a, d⟩ [']'] ⟨.code, d⟩ :=
      Scan.passes_inert (by simp) (hBracket (by simp)) (Text.isCode_endMode (M := Mode) a)
    exact hOpen.append ((Scan.passes_bare hBare hBalanced hd).append hClose)
  · exact .nil

/-- Only the type arguments hold what is not inert. -/
theorem WellFormed.not_mem (h : e.WellFormed) {c : Char} (hc : ¬ Scan.IsInert c)
    (hArgs : ∀ a ∈ e.args, c ∉ a) : c ∉ e.text := by
  rw [text, List.mem_append, not_or]
  constructor
  · intro hMem
    exact hc (h.isInert c hMem)
  · unfold argsText
    split
    · next a ha =>
      have hOpen : c ≠ '[' := by
        rintro rfl
        exact hc (by decide)
      have hClose : c ≠ ']' := by
        rintro rfl
        exact hc (by decide)
      simp [hOpen, hClose, hArgs a ha]
    · simp

theorem WellFormed.no_newline (h : e.WellFormed) : '\n' ∉ e.text :=
  h.not_mem (by decide) fun a ha => (h.args a ha).1.no_newline

theorem WellFormed.no_backtick (h : e.WellFormed) : '\x60' ∉ e.text :=
  h.not_mem (by decide) fun a ha => (h.args a ha).1.no_backtick

theorem WellFormed.ne_nil (h : e.WellFormed) : e.text ≠ [] := by
  simp [text, h.name.ne_nil]

/-- An embedded type is a name, or a name stops in it at a character that is no blank. -/
theorem IsNamed.name_or_solid (h : e.IsNamed) :
    e.text = e.name ∨ ∃ w c t, e.text = w ++ c :: t ∧ (∀ x ∈ w, Text.isWord x = true) ∧
      Text.isWord c = false ∧ Text.isBlank c = false := by
  -- the star, the dot or the bracket is that character, whichever comes first
  by_cases hStar : e.pointer = true
  · right
    exact ⟨[], '*', e.qualifierText ++ e.name ++ e.argsText, by simp [text, starText, hStar],
      by simp, by decide, by decide⟩
  · cases hQualifier : e.qualifier with
    | some q =>
      right
      have hSplit : e.text = q ++ '.' :: (e.name ++ e.argsText) := by
        simp [text, starText, qualifierText, hStar, hQualifier]
      exact ⟨q, '.', e.name ++ e.argsText, hSplit, h.isWord_qualifier q hQualifier, by decide,
        by decide⟩
    | none =>
      cases hArgs : e.args with
      | some a =>
        right
        exact ⟨e.name, '[', a ++ [']'],
          by simp [text, starText, qualifierText, argsText, hStar, hQualifier, hArgs],
          h.name.chars, by decide, by decide⟩
      | none =>
        left
        simp [text, starText, qualifierText, argsText, hStar, hQualifier, hArgs]

theorem IsNamed.strip_text (h : e.IsNamed) : Text.strip e.text = e.text := by
  rw [Text.strip_eq_self_iff]
  constructor
  · intro c hc
    rcases h.name_or_solid with hName | ⟨w, x, t, hSplit, hWord, -, hx⟩
    · rw [hName] at hc
      exact h.name.head_solid c hc
    · rw [hSplit] at hc
      cases w with
      | nil =>
        obtain rfl : x = c := by simpa using hc
        exact hx
      | cons y w =>
        obtain rfl : y = c := by simpa using hc
        exact Text.isBlank_of_isWord (hWord y List.mem_cons_self)
  · intro c hc
    -- the end is a bracket, or that of the name
    cases hArgs : e.args with
    | some a =>
      have hSplit : e.text = e.starText ++ e.qualifierText ++ e.name ++ '[' :: a ++ [']'] := by
        simp [text, argsText, hArgs]
      rw [hSplit, List.getLast?_concat] at hc
      obtain rfl : ']' = c := by simpa using hc
      decide
    | none =>
      have hSplit : e.text = e.starText ++ e.qualifierText ++ e.name := by
        simp [text, argsText, hArgs]
      rw [hSplit, List.getLast?_append_of_ne_nil _ h.name.ne_nil] at hc
      exact Text.isBlank_of_isWord (h.name.chars c (List.mem_of_getLast? hc))

/-- A line that starts with an embedded type is no field: no type follows a name. -/
theorem IsNamed.field?_eq_none (h : e.IsNamed) {pad tail : Text}
    (hPad : ∀ c ∈ pad, Text.isBlank c = true) (hMark : tail = [] ∨ Row.atMark tail = true) :
    Row.field? (e.text ++ (pad ++ tail)) = none := by
  rcases h.name_or_solid with hName | ⟨w, c, t, hSplit, hWord, hSolid⟩
  · rw [hName]
    exact Row.field?_eq_none_of_untyped h.name.chars hPad hMark
  · rw [hSplit, List.append_assoc, List.cons_append]
    exact Row.field?_eq_none_of_solid hWord hSolid.1 hSolid.2 _

end Embedded

/-! ## Rows -/

/-- What stands on a row of a body. -/
inductive Item
  | field (f : Field) (s : Spacing)
  -- its row may go on with a tag and a comment, too
  | embedded (e : Embedded) (tag doc : Option Text) (s : Spacing)
  | comment (indent said : Text)
  | blank (pad : Text)

namespace Item

/-- The row as it is written. -/
def text : Item → Text
  | field f s => f.spaced s
  | embedded e tag doc s => s.row e.text tag doc
  | comment indent said => indent ++ '/' :: '/' :: said
  | blank pad => pad

/-- The field on the row. -/
def field? : Item → Option Field
  | field f _ => some f
  | _ => none

/-- Whether the row ends in a comment, which only a line feed ends. -/
def isCommented : Item → Bool
  | field f _ => f.doc.isSome
  | embedded _ _ doc _ => doc.isSome
  | comment _ _ => true
  | blank _ => false

/-- The parts of the row can be told apart. -/
def WellFormed : Item → Prop
  | field f s => f.WellFormed ∧ s.WellFormed ∧ s.Apart f.typeExpr f.tag f.doc
  | embedded e tag doc s => e.WellFormed ∧ s.WellFormed ∧
      (∀ t ∈ tag, '\x60' ∉ t ∧ '\n' ∉ t) ∧ ∀ t ∈ doc, t ≠ [] ∧ Text.strip t = t ∧ '\n' ∉ t
  | comment indent said => indent.IsPadding ∧ '\n' ∉ said
  | blank pad => pad.IsPadding

/-- What may end the row: a line feed, or a semicolon if there is no comment that would hide it. -/
def EndsWith (i : Item) (c : Char) : Prop := c = '\n' ∨ c = ';' ∧ i.isCommented = false

variable {i : Item}

/-- The splitter reads a row in one piece. Without a comment, it comes out in code. -/
theorem passes (h : i.WellFormed) {d : Int} (hd : 0 ≤ d) :
    ∃ m, Scan.Passes ⟨.code, d⟩ i.text ⟨m, d⟩ ∧ (i.isCommented = false → m.isCode = true) := by
  cases i with
  | field f s =>
    obtain ⟨m, hPasses, hCode⟩ := h.1.passes_spaced h.2.1 hd
    exact ⟨m, hPasses, fun hDoc => hCode (by simpa [isCommented] using hDoc)⟩
  | embedded e tag doc s =>
    obtain ⟨he, hs, hTag, hDoc⟩ := h
    obtain ⟨m, hPasses, hCode⟩ := Spacing.passes_row hs (fun t ht => (hTag t ht).1)
      (fun t ht => (hTag t ht).2) (fun t ht => (hDoc t ht).2.2) rfl (he.passes_text hd)
    exact ⟨m, hPasses, fun hNone => hCode (by simpa [isCommented] using hNone)⟩
  | comment indent said =>
    exact ⟨.comment, (Scan.passes_indent h.1).append (Scan.passes_comment h.2 rfl),
      by simp [isCommented]⟩
  | blank pad => exact ⟨.code, Scan.passes_indent h, fun _ => rfl⟩

theorem no_newline (h : i.WellFormed) : '\n' ∉ i.text := by
  cases i with
  | field f s => exact h.1.no_newline_spaced h.2.1
  | embedded e tag doc s =>
    obtain ⟨he, hs, hTag, hDoc⟩ := h
    have hTrailer := Spacing.no_newline_trailer hs (fun t ht => (hTag t ht).2) fun t ht =>
      (hDoc t ht).2.2
    simp [text, Spacing.row, hs.before.no_newline, he.no_newline, hTrailer, hs.after.no_newline]
  | comment indent said =>
    have hIndent := h.1.no_newline
    have hSaid := h.2
    simp [text, hIndent, hSaid]
  | blank pad => exact Text.IsPadding.no_newline h

/-- The piece that a row makes declares the field on the row, or none. -/
theorem toField?_ofLine (h : i.WellFormed) :
    (Row.ofLine (tidy i.text)).toField? = i.field? := by
  have hTidy : tidy i.text = Text.strip i.text :=
    if_neg fun hc => no_newline h (Text.strip_isInfix.subset hc)
  -- a row that is no field is skipped, for whichever reason
  have hSkipped : Row.field? (Text.strip i.text) = none →
      (Row.ofLine (Text.strip i.text)).toField? = none := by
    intro hNone
    cases hRow : (Row.ofLine (Text.strip i.text)).toField? with
    | none => rfl
    | some f =>
      rw [Row.field?_of_ofLine hRow] at hNone
      exact absurd hNone (by simp)
  cases i with
  | field f s =>
    rw [text, h.1.ofLine_tidy_spaced h.2.1 h.2.2]
    rfl
  | embedded e tag doc s =>
    obtain ⟨he, hs, hTag, hDoc⟩ := h
    have hEnds : ∀ t ∈ doc, t ≠ [] ∧ Text.strip t = t := fun t ht =>
      ⟨(hDoc t ht).1, (hDoc t ht).2.1⟩
    rw [hTidy]
    refine hSkipped ?_
    obtain ⟨pad, tail, hTrailer, hPad, hMark, -⟩ :=
      Spacing.exists_trailer hs (fun t ht => (hTag t ht).1) hEnds
    rw [text, Spacing.strip_row hs he.ne_nil hEnds he.strip_text, hTrailer]
    exact he.field?_eq_none hPad hMark
  | comment indent said =>
    rw [hTidy]
    refine hSkipped ?_
    rw [text, Text.strip_blank_append h.1.isBlank, Text.strip_cons (by decide)]
    have hNone : ∀ x ∈ ([] : Text), Text.isWord x = true := by simp
    exact Row.field?_eq_none_of_solid hNone (by decide) (by decide) _
  | blank pad =>
    rw [hTidy]
    refine hSkipped ?_
    rw [text, Text.strip_of_blank h.isBlank]
    rfl

end Item

/-- A body of rows, each with the character that ends it. -/
def layout (rows : List (Item × Char)) : Text := rows.flatMap fun r => r.1.text ++ [r.2]

end FieldHint.Body

namespace FieldHint.Field

variable {rows : List (Body.Item × Char)}

/-- A body is read as the fields that are laid out in it: none is lost, doubled or changed, in
whatever way they are spaced and whatever rows stand among them. -/
theorem ofBody_layout (h : ∀ r ∈ rows, r.1.WellFormed ∧ r.1.EndsWith r.2) :
    ofBody (Body.layout rows) = rows.filterMap fun r => r.1.field? := by
  induction rows with
  | nil => rfl
  | cons r rows ih =>
    obtain ⟨i, c⟩ := r
    rw [List.forall_mem_cons] at h
    obtain ⟨⟨hi, hc⟩, hTail⟩ := h
    obtain ⟨m, hPasses, hCode⟩ := Body.Item.passes hi le_rfl
    -- a row that ends in a comment leaves the scan there, and only a line feed leads out of it
    have hEnds : c = '\n' ∨ c = ';' ∧ m.isCode = true := hc.imp_right fun hSemicolon =>
      ⟨hSemicolon.1, hCode hSemicolon.2⟩
    have hSplit : Body.layout ((i, c) :: rows) = i.text ++ c :: Body.layout rows := by
      simp [Body.layout]
    rw [hSplit, ofBody_append_of_passes hPasses hEnds, Body.Item.toField?_ofLine hi, ih hTail,
      List.filterMap_cons]
    cases i.field? <;> rfl

/-- Two fields among other rows. The first shares its line with an embedded type, its type holds a
semicolon and its tag a comment mark; the second has an empty tag right behind its type. -/
def thornyRows : List (Body.Item × Char) :=
  [(.blank ['\t'], '\n'),
    (.comment [' '] ['\x60', '{', ';'], '\n'),
    (.field ⟨['a'], ['s', '{', 'x', ';', 'y', '}'], some ['}', '/', '/'], none⟩
      { before := ['\t'], afterName := ['\u2028', ' '], after := ['\r'] }, ';'),
    (.embedded { pointer := true, qualifier := some ['p'], name := ['B'], args := some ['T'] }
      (some ['{']) (some ['c']) {}, '\n'),
    (.field ⟨['b'], ['U'], some [], some ['{', ';']⟩ { beforeTag := [], insideDoc := [] }, '\n')]

/-- The theorem at rows whose tags and comments hold what would part or end a row. -/
theorem ofBody_layout_thorny :
    (∀ r ∈ thornyRows, r.1.WellFormed ∧ r.1.EndsWith r.2) ∧
      ofBody (Body.layout thornyRows) =
        [⟨['a'], ['s', '{', 'x', ';', 'y', '}'], some ['}', '/', '/'], none⟩,
          ⟨['b'], ['U'], some [], some ['{', ';']⟩] := by
  have hPad : ∀ {c : Char}, Text.isBlank c = true ∧ c ≠ '\n' → Text.IsPadding [c] :=
    fun hc => List.forall_mem_singleton.mpr hc
  have hSingle := Spacing.wellFormed_single
  have hRows : ∀ r ∈ thornyRows, r.1.WellFormed ∧ r.1.EndsWith r.2 := by
    simp only [thornyRows, List.forall_mem_cons, List.not_mem_nil, false_implies, implies_true,
      and_true]
    refine ⟨⟨hPad (by decide), Or.inl rfl⟩, ⟨⟨hPad (by decide), by decide⟩, Or.inl rfl⟩,
      ⟨⟨?_, ?_⟩, Or.inr ⟨rfl, rfl⟩⟩, ⟨⟨?_, hSingle, ?_, ?_⟩, Or.inl rfl⟩,
      ⟨?_, ?_⟩, Or.inl rfl⟩
    · refine ⟨⟨⟨by decide, ?_, by simp⟩, ?_, by simp⟩, ⟨by decide, by decide⟩, by decide,
        by decide⟩
      · rintro _ ⟨⟩
        decide
      · rintro _ ⟨⟩
        decide
    · -- a line break in the wide sense is a blank like any other
      have hGap : Text.IsPadding ['\u2028', ' '] :=
        List.forall_mem_cons.mpr ⟨by decide, List.forall_mem_singleton.mpr (by decide)⟩
      have hSpacing : Spacing.WellFormed
          { before := ['\t'], afterName := ['\u2028', ' '], after := ['\r'] } :=
        { hSingle with
          before := hPad (by decide), afterName := ⟨by simp, hGap⟩, after := hPad (by decide) }
      exact ⟨hSpacing, by decide⟩
    · refine ⟨⟨?_, by decide⟩, ?_⟩
      · rintro _ ⟨⟩
        exact List.forall_mem_singleton.mpr (by decide)
      · rintro _ ⟨⟩
        exact ⟨by decide, by decide⟩
    · rintro _ ⟨⟩
      decide
    · rintro _ ⟨⟩
      decide
    · refine ⟨⟨⟨by decide, by simp, ?_⟩, by simp, ?_⟩, ⟨by decide, by decide⟩, by decide,
        by decide⟩
      · rintro _ ⟨⟩
        decide
      · rintro _ ⟨⟩
        decide
    · have hSpacing : Spacing.WellFormed { beforeTag := [], insideDoc := [] } :=
        { hSingle with beforeTag := Text.isPadding_nil, insideDoc := Text.isPadding_nil }
      exact ⟨hSpacing, by decide⟩
  exact ⟨hRows, ofBody_layout hRows⟩

end FieldHint.Field
