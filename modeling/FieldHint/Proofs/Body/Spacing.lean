import FieldHint.Struct.Header
import FieldHint.Proofs.Body.Declares
import FieldHint.Proofs.Body.Split

/-!
# Struct bodies — rows and the blanks in them

A field may be written with any blanks around and between its parts. `Spacing.row` writes a row so,
and two readers take it as it is meant:

* `Spacing.passes_row` — the splitter comes through it, and a semicolon may follow it unless it ends
  in a comment;
* `Spacing.ofLine_row` — stripped, it is read as the parts that were written.

`Field.Framed` says when the parts of a field can be told apart, whatever its type is. With a type
whose braces are balanced and hold its semicolons, the field is `Field.WellFormed`. For a row that
is already cut out of its body, line feeds part nothing any more: there a field is
`Field.Delimited` if its type holds no mark. What the three share is `Field.Marked` and
`Field.Typed`.
-/

namespace FieldHint

/-! ## Blanks -/

/-- Blanks that stay on their line. -/
def Text.IsPadding (t : Text) : Prop := ∀ c ∈ t, isBlank c = true ∧ c ≠ '\n'

instance (t : Text) : Decidable t.IsPadding := List.decidableBAll _ t

/-- Blanks that part two words. -/
def Text.IsGap (t : Text) : Prop := t ≠ [] ∧ t.IsPadding

instance (t : Text) : Decidable t.IsGap := inferInstanceAs (Decidable (t ≠ [] ∧ t.IsPadding))

namespace Text

variable {t : Text} {c : Char}

theorem isPadding_nil : IsPadding [] := by simp [IsPadding]

theorem isGap_space : IsGap [' '] := by
  refine ⟨by simp, ?_⟩
  intro c hc
  obtain rfl := List.mem_singleton.mp hc
  exact ⟨by decide, by decide⟩

theorem IsPadding.isBlank (h : IsPadding t) : ∀ c ∈ t, Text.isBlank c = true :=
  fun c hc => (h c hc).1

theorem IsPadding.not_mem (h : IsPadding t) (hc : Text.isBlank c = false) : c ∉ t :=
  not_mem_of_class h.isBlank hc

theorem IsPadding.no_newline (h : IsPadding t) : '\n' ∉ t := fun hc => (h _ hc).2 rfl

end Text

/-- The blanks of a row: around it, and between its parts. -/
structure Spacing where
  before : Text := []
  afterName : Text := [' ']
  beforeTag : Text := [' ']
  beforeDoc : Text := [' ']
  insideDoc : Text := [' ']
  after : Text := []

namespace Spacing

/-- Blanks part a name from its type. All others may be missing. -/
structure WellFormed (s : Spacing) : Prop where
  before : s.before.IsPadding
  afterName : s.afterName.IsGap
  beforeTag : s.beforeTag.IsPadding
  beforeDoc : s.beforeDoc.IsPadding
  insideDoc : s.insideDoc.IsPadding
  after : s.after.IsPadding

theorem wellFormed_single : WellFormed {} :=
  ⟨Text.isPadding_nil, Text.isGap_space, Text.isGap_space.2, Text.isGap_space.2,
    Text.isGap_space.2, Text.isPadding_nil⟩

/-- A tag with the blanks in front of it. -/
def tagText (s : Spacing) : Option Text → Text
  | none => []
  | some tag => s.beforeTag ++ ('\x60' :: tag ++ ['\x60'])

/-- A comment with the blanks in front of it. -/
def docText (s : Spacing) : Option Text → Text
  | none => []
  | some doc => s.beforeDoc ++ '/' :: '/' :: (s.insideDoc ++ doc)

/-- What follows the first part of a row. -/
def trailer (s : Spacing) (tag doc : Option Text) : Text := s.tagText tag ++ s.docText doc

/-- A row with a first part, perhaps a tag, and perhaps a comment. -/
def row (s : Spacing) (head : Text) (tag doc : Option Text) : Text :=
  s.before ++ (head ++ s.trailer tag doc) ++ s.after

/-- No comment follows a slash at the end of the first part, where its mark would be found one
character early. -/
def Apart (s : Spacing) (head : Text) (tag doc : Option Text) : Prop :=
  ¬ (head.getLast? = some '/' ∧ (s.trailer tag doc).head? = some '/')

instance (s : Spacing) (head : Text) (tag doc : Option Text) : Decidable (s.Apart head tag doc) :=
  inferInstanceAs
    (Decidable ¬ (head.getLast? = some '/' ∧ (s.trailer tag doc).head? = some '/'))

theorem apart_single (head : Text) (tag doc : Option Text) : Apart {} head tag doc := by
  rintro ⟨-, hHead⟩
  cases tag <;> cases doc <;> simp [trailer, tagText, docText] at hHead

end Spacing

namespace Field

/-- The field as a row. An empty tag is written, too. -/
def spaced (s : Spacing) (f : Field) : Text :=
  s.row (f.name ++ (s.afterName ++ f.typeExpr)) f.tag f.doc

/-- The field has a name, no backtick ends its tag early, and no blank at an end of its comment is
stripped. -/
structure Marked (f : Field) : Prop where
  name : Text.IsName f.name
  tag : ∀ tag ∈ f.tag, '\x60' ∉ tag
  doc : ∀ doc ∈ f.doc, doc ≠ [] ∧ Text.strip doc = doc

/-- Nor does a line feed part the tag or the comment: they end where they are meant to, whatever the
type is. -/
structure Framed (f : Field) : Prop extends Marked f where
  tag_line : ∀ tag ∈ f.tag, '\n' ∉ tag
  doc_line : ∀ doc ∈ f.doc, '\n' ∉ doc

/-- The field has a type, with no blank at its ends. -/
structure Typed (f : Field) : Prop where
  type_ne_nil : f.typeExpr ≠ []
  strip_type : Text.strip f.typeExpr = f.typeExpr

/-- The parts of the field can be told apart on a row, whatever line breaks they hold. -/
structure Delimited (f : Field) : Prop extends Marked f, Typed f where
  unmarked_type : Row.Unmarked f.typeExpr

/-- A field that its line is a faithful account of. -/
structure WellFormed (f : Field) : Prop extends Framed f, Typed f where
  bare_type : Body.Scan.Bare f.typeExpr
  balanced_type : Brace.Balanced f.typeExpr

variable {f : Field}

theorem WellFormed.delimited (h : f.WellFormed) : f.Delimited :=
  { h.toMarked, h.toTyped with
    unmarked_type := ⟨h.bare_type.no_backtick, h.bare_type.no_comment⟩ }

end Field

/-! ## Splitting a row -/

namespace Body.Scan

variable {d : Int} {m : Mode} {t : Text}

/-- A class that no character with a meaning belongs to. -/
theorem isInert_of_class {p : Char → Bool} {c : Char} (hp : p c = true)
    (hSpecial : ['\x60', '/', '{', '}', ';'].any p = false) (hNewline : c ≠ '\n') :
    IsInert c := by
  intro hc
  have hMem : c ∈ ['\x60', '/', '{', '}', ';'] := by
    simp only [List.mem_cons, List.not_mem_nil, or_false] at hc ⊢
    simpa [hNewline] using hc
  exact List.any_eq_false.mp hSpecial c hMem hp

theorem isInert_of_isWord {c : Char} (hc : Text.isWord c = true) : IsInert c := by
  refine isInert_of_class hc (by decide) ?_
  rintro rfl
  revert hc
  decide

theorem passes_gap (h : t.IsGap) (hm : m.isCode = true) : Passes ⟨m, d⟩ t ⟨.code, d⟩ :=
  passes_inert h.1 (fun c hc => isInert_of_class (h.2 c hc).1 (by decide) (h.2 c hc).2) hm

theorem passes_padding (h : t.IsPadding) (hm : m.isCode = true) :
    ∃ m', m'.isCode = true ∧ Passes ⟨m, d⟩ t ⟨m', d⟩ := by
  by_cases hne : t = []
  · subst hne
    exact ⟨m, hm, .nil⟩
  · exact ⟨.code, rfl, passes_gap ⟨hne, h⟩ hm⟩

theorem passes_indent (h : t.IsPadding) : Passes ⟨.code, d⟩ t ⟨.code, d⟩ := by
  by_cases hne : t = []
  · subst hne
    exact .nil
  · exact passes_gap ⟨hne, h⟩ rfl

theorem passes_structKeyword : Passes ⟨.code, d⟩ Header.structKeyword ⟨.code, d⟩ := by
  have hAll : Header.structKeyword.all fun c => decide (IsInert c) := by decide
  exact passes_inert (by decide) (by simpa using hAll) rfl

end Body.Scan

namespace Spacing

variable {s : Spacing} {tag doc : Option Text} {head name typeExpr : Text} {d : Int}
  {m : Body.Mode}

/-- The splitter reads a row in one piece, if it does so with the first part. Without a comment, it
comes out in code. -/
theorem passes_row (hs : s.WellFormed) (hTick : ∀ t ∈ tag, '\x60' ∉ t)
    (hTag : ∀ t ∈ tag, '\n' ∉ t) (hDoc : ∀ t ∈ doc, '\n' ∉ t) (hm : m.isCode = true)
    (hHead : Body.Scan.Passes ⟨.code, d⟩ head ⟨m, d⟩) :
    ∃ m', Body.Scan.Passes ⟨.code, d⟩ (s.row head tag doc) ⟨m', d⟩ ∧
      (doc = none → m'.isCode = true) := by
  -- the parts from left to right: each leaves the scan where the next may start
  have hTagText : ∃ m', m'.isCode = true ∧
      Body.Scan.Passes ⟨m, d⟩ (s.tagText tag) ⟨m', d⟩ := by
    cases tag with
    | none => exact ⟨m, hm, .nil⟩
    | some t =>
      obtain ⟨m', hm', hGap⟩ := Body.Scan.passes_padding (d := d) hs.beforeTag hm
      exact ⟨.code, rfl, hGap.append (Body.Scan.passes_tag (hTick t rfl) (hTag t rfl) hm')⟩
  obtain ⟨m', hm', hTagText⟩ := hTagText
  have hRest : ∃ m'', Body.Scan.Passes ⟨m', d⟩ (s.docText doc ++ s.after) ⟨m'', d⟩ ∧
      (doc = none → m''.isCode = true) := by
    cases doc with
    | none =>
      obtain ⟨m'', hm'', hAfter⟩ := Body.Scan.passes_padding (d := d) hs.after hm'
      exact ⟨m'', hAfter, fun _ => hm''⟩
    | some t =>
      have hNewline : '\n' ∉ s.insideDoc ++ t := by
        rw [List.mem_append, not_or]
        exact ⟨hs.insideDoc.no_newline, hDoc t rfl⟩
      obtain ⟨m'', hm'', hGap⟩ := Body.Scan.passes_padding (d := d) hs.beforeDoc hm'
      exact ⟨.comment, (hGap.append (Body.Scan.passes_comment hNewline hm'')).append
        (Body.Scan.passes_in_comment hs.after.no_newline), by simp⟩
  obtain ⟨m'', hRest, hCode⟩ := hRest
  refine ⟨m'', ?_, hCode⟩
  have hSplit : s.row head tag doc =
      s.before ++ (head ++ (s.tagText tag ++ (s.docText doc ++ s.after))) := by
    simp [row, trailer]
  rw [hSplit]
  exact (Body.Scan.passes_indent hs.before).append (hHead.append (hTagText.append hRest))

/-! ## Reading a row -/

theorem no_newline_trailer (hs : s.WellFormed) (hTag : ∀ t ∈ tag, '\n' ∉ t)
    (hDoc : ∀ t ∈ doc, '\n' ∉ t) : '\n' ∉ s.trailer tag doc := by
  rw [trailer, List.mem_append, not_or]
  constructor
  · cases tag with
    | none => simp [tagText]
    | some t => simpa [tagText, hs.beforeTag.no_newline] using hTag t rfl
  · cases doc with
    | none => simp [docText]
    | some t =>
      simpa [docText, hs.beforeDoc.no_newline, hs.insideDoc.no_newline] using hDoc t rfl

/-- A trailer ends with the closing backtick or with the last word of its comment. -/
theorem getLast?_trailer (hDoc : ∀ t ∈ doc, t ≠ [] ∧ Text.strip t = t) :
    ∀ c ∈ (s.trailer tag doc).getLast?, Text.isBlank c = false := by
  cases doc with
  | some t =>
    obtain ⟨hne, hStrip⟩ := hDoc t rfl
    have hSplit : s.trailer tag (some t) =
        s.tagText tag ++ s.beforeDoc ++ ['/', '/'] ++ s.insideDoc ++ t := by
      simp [trailer, docText]
    rw [hSplit, List.getLast?_append_of_ne_nil _ hne]
    exact (Text.strip_eq_self_iff.mp hStrip).2
  | none =>
    cases tag with
    | some t =>
      have hSplit : s.trailer (some t) none = s.beforeTag ++ '\x60' :: t ++ ['\x60'] := by
        simp [trailer, docText, tagText]
      rw [hSplit, List.getLast?_concat]
      rintro _ ⟨⟩
      decide
    | none => simp [trailer, docText, tagText]

/-- Stripping takes the blanks around a row away, and nothing else. -/
theorem strip_row (hs : s.WellFormed) (hne : head ≠ [])
    (hDoc : ∀ t ∈ doc, t ≠ [] ∧ Text.strip t = t) (hStrip : Text.strip head = head) :
    Text.strip (s.row head tag doc) = head ++ s.trailer tag doc := by
  rw [row, Text.strip_append_blank hs.after.isBlank, Text.strip_blank_append hs.before.isBlank,
    Text.strip_eq_self_iff]
  -- what is left starts with the first part, and ends with it or with the trailer
  have hEnds := Text.strip_eq_self_iff.mp hStrip
  constructor
  · rw [List.head?_append_of_ne_nil _ hne]
    exact hEnds.1
  · by_cases hTrailer : s.trailer tag doc = []
    · rw [hTrailer, List.append_nil]
      exact hEnds.2
    · rw [List.getLast?_append_of_ne_nil _ hTrailer]
      exact getLast?_trailer hDoc

/-- A trailer is blanks and the mark of a tag or comment, or nothing, and it is read as the tag and
the comment. -/
theorem exists_trailer (hs : s.WellFormed) (hTag : ∀ t ∈ tag, '\x60' ∉ t)
    (hDoc : ∀ t ∈ doc, t ≠ [] ∧ Text.strip t = t) :
    ∃ pad tail, s.trailer tag doc = pad ++ tail ∧
      (∀ c ∈ pad, Text.isBlank c = true) ∧ (tail = [] ∨ Row.atMark tail = true) ∧
      Row.trailer? tail = some (tag, doc) := by
  have hStart : ∀ t, Text.stripStart (s.docText (some t)) = '/' :: '/' :: (s.insideDoc ++ t) :=
    fun t => Text.dropWhile_run hs.beforeDoc.isBlank (by rintro _ ⟨⟩; decide)
  have hComment : Row.comment? (Text.stripStart (s.docText doc)) = some doc := by
    cases doc with
    | none => rfl
    | some t =>
      obtain ⟨hne, hStrip⟩ := hDoc t rfl
      rw [hStart, Row.comment?_mark, Text.strip_blank_append hs.insideDoc.isBlank, hStrip,
        Text.nonempty?_of_ne_nil hne]
  cases tag with
  | some t =>
    refine ⟨s.beforeTag, '\x60' :: (t ++ '\x60' :: s.docText doc), by simp [trailer, tagText],
      hs.beforeTag.isBlank, Or.inr rfl, ?_⟩
    rw [Row.trailer?_tag (hTag t rfl), hComment]
    rfl
  | none =>
    cases doc with
    | some t =>
      refine ⟨s.beforeDoc, '/' :: '/' :: (s.insideDoc ++ t), rfl, hs.beforeDoc.isBlank,
        Or.inr rfl, ?_⟩
      rw [hStart, Row.comment?_mark, Option.some_inj] at hComment
      rw [Row.trailer?_comment, hComment]
    | none => exact ⟨[], [], rfl, by simp, Or.inl rfl, rfl⟩

/-- A stripped row is read as the parts that were written. -/
theorem ofLine_row {f : Field} (hs : s.WellFormed) (hf : f.Delimited)
    (hApart : s.Apart f.typeExpr f.tag f.doc) :
    Row.ofLine (f.name ++ (s.afterName ++ f.typeExpr) ++ s.trailer f.tag f.doc) = .field f := by
  obtain ⟨pad, tail, hSplit, hPad, hMark, hTrailer⟩ := exists_trailer hs hf.tag hf.doc
  have hSeam : ¬ (f.typeExpr.getLast? = some '/' ∧ (pad ++ tail).head? = some '/') := by
    rw [← hSplit]
    exact hApart
  have hField := Row.field?_row hf.name.ne_nil hf.name.chars hs.afterName.1
    hs.afterName.2.isBlank hf.type_ne_nil hf.strip_type hf.unmarked_type hPad hMark hSeam hTrailer
  have hLine : f.name ++ (s.afterName ++ f.typeExpr) ++ s.trailer f.tag f.doc =
      f.name ++ (s.afterName ++ (f.typeExpr ++ (pad ++ tail))) := by
    rw [hSplit]
    simp
  rw [hLine]
  exact Row.ofLine_of_name hf.name.ne_nil hf.name.chars hField

end Spacing

/-! ## Rows of fields -/

namespace Field.Framed

variable {f : Field} {s : Spacing}

/-- The splitter takes a name as it is. -/
theorem passes_name (h : f.Framed) {d : Int} :
    Body.Scan.Passes ⟨.code, d⟩ f.name ⟨.code, d⟩ :=
  Body.Scan.passes_inert h.name.ne_nil
    (fun c hc => Body.Scan.isInert_of_isWord (h.name.chars c hc)) rfl

theorem no_newline_spaced (h : f.Framed) (hs : s.WellFormed) (hLine : '\n' ∉ f.typeExpr) :
    '\n' ∉ f.spaced s := by
  have hTrailer := Spacing.no_newline_trailer hs h.tag_line h.doc_line
  simp [spaced, Spacing.row, hs.before.no_newline, h.name.not_mem (c := '\n') (by decide),
    hs.afterName.2.no_newline, hLine, hTrailer, hs.after.no_newline]

theorem strip_head (h : f.Framed) (hType : f.Typed) (gap : Text) :
    Text.strip (f.name ++ (gap ++ f.typeExpr)) = f.name ++ (gap ++ f.typeExpr) := by
  rw [Text.strip_eq_self_iff]
  constructor
  · intro c hc
    rw [List.head?_append_of_ne_nil _ h.name.ne_nil] at hc
    exact h.name.head_solid c hc
  · rw [← List.append_assoc, List.getLast?_append_of_ne_nil _ hType.type_ne_nil]
    exact (Text.strip_eq_self_iff.mp hType.strip_type).2

/-- Stripping a row takes the blanks around it away. -/
theorem strip_spaced (h : f.Framed) (hs : s.WellFormed) (hType : f.Typed) :
    Text.strip (f.spaced s) =
      f.name ++ (s.afterName ++ f.typeExpr) ++ s.trailer f.tag f.doc :=
  Spacing.strip_row hs (by simp [h.name.ne_nil]) h.doc (h.strip_head hType s.afterName)

/-- A row on one line is only stripped. -/
theorem tidy_spaced (h : f.Framed) (hs : s.WellFormed) (hType : f.Typed)
    (hLine : '\n' ∉ f.typeExpr) :
    Body.tidy (f.spaced s) =
      f.name ++ (s.afterName ++ f.typeExpr) ++ s.trailer f.tag f.doc := by
  have hNewline : '\n' ∉ Text.strip (f.spaced s) :=
    fun hc => h.no_newline_spaced hs hLine (Text.strip_isInfix.subset hc)
  rw [Body.tidy, if_neg hNewline, h.strip_spaced hs hType]

end Field.Framed

namespace Field.WellFormed

variable {f : Field} {s : Spacing}

/-- The name and the type of a field, as the splitter reads them. -/
theorem passes_head (h : f.WellFormed) (hs : s.WellFormed) {d : Int} (hd : 0 ≤ d) :
    Body.Scan.Passes ⟨.code, d⟩ (f.name ++ (s.afterName ++ f.typeExpr))
      ⟨Text.endMode f.typeExpr, d⟩ :=
  h.toFramed.passes_name.append ((Body.Scan.passes_gap hs.afterName rfl).append
    (Body.Scan.passes_bare h.bare_type h.balanced_type hd))

theorem passes_spaced (h : f.WellFormed) (hs : s.WellFormed) {d : Int} (hd : 0 ≤ d) :
    ∃ m, Body.Scan.Passes ⟨.code, d⟩ (f.spaced s) ⟨m, d⟩ ∧ (f.doc = none → m.isCode = true) :=
  Spacing.passes_row hs h.tag h.tag_line h.doc_line (Text.isCode_endMode (M := Body.Mode) _)
    (h.passes_head hs hd)

theorem no_newline_spaced (h : f.WellFormed) (hs : s.WellFormed) : '\n' ∉ f.spaced s :=
  h.toFramed.no_newline_spaced hs h.bare_type.no_newline

theorem tidy_spaced (h : f.WellFormed) (hs : s.WellFormed) :
    Body.tidy (f.spaced s) =
      f.name ++ (s.afterName ++ f.typeExpr) ++ s.trailer f.tag f.doc :=
  h.toFramed.tidy_spaced hs h.toTyped h.bare_type.no_newline

/-- However a field is spaced, its row is read as the field. -/
theorem ofLine_tidy_spaced (h : f.WellFormed) (hs : s.WellFormed)
    (hApart : s.Apart f.typeExpr f.tag f.doc) :
    Row.ofLine (Body.tidy (f.spaced s)) = .field f := by
  rw [h.tidy_spaced hs]
  exact Spacing.ofLine_row hs h.delimited hApart

end Field.WellFormed

/-- A field whose type is a name, too. -/
theorem Field.wellFormed_of_isName {name typeExpr : Text} (hName : Text.IsName name)
    (hType : Text.IsName typeExpr) : WellFormed ⟨name, typeExpr, none, none⟩ where
  name := hName
  type_ne_nil := hType.ne_nil
  strip_type := by
    rw [Text.strip_eq_self_iff]
    constructor
    · intro c hc
      exact hType.head_solid c hc
    · intro c hc
      exact Text.isBlank_of_isWord (hType.chars c (List.mem_of_getLast? hc))
  bare_type := by
    have hNot : ∀ {c : Char}, Text.isWord c = false → c ∉ typeExpr := hType.not_mem
    refine ⟨hNot (by decide), ?_, hNot (by decide), ?_⟩
    · exact Text.not_infix_of_not_mem (x := '/') (by decide) (hNot (by decide))
    · intro p hp
      exact absurd (hp.subset (by simp)) (hNot (c := ';') (by decide))
  balanced_type := .of_not_mem (hType.not_mem (by decide)) (hType.not_mem (by decide))
  tag := by simp
  doc := by simp
  tag_line := by simp
  doc_line := by simp

end FieldHint
