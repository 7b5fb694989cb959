import FieldHint.Proofs.Body.Fold
import FieldHint.Proofs.Body.Parts
import FieldHint.Proofs.Body.Remark

/-!
# Struct bodies — inline structs as trees

A field whose type is an inline struct may be laid out with one inner field, opening or closing
brace on each line, any indentation, and blank lines and comments in between. The library does not
parse the inner fields. It cuts the comments line by line and chooses what to put between two lines
by their ends alone, and still the result is the type as it would be written on one line:

* `InlineFields` — the fields of an inline struct, with the lines and the row that they are written
  as;
* `joinLines_lines` — joining the lines gives the row, whatever the shape of the tree;
* `passes_layout` / `foldParts_layout` — the splitter keeps the lines together, and the folder finds
  their code;
* `Field.ofBody_inlineLayout` — the field that is read, with the tag and the comment of its last
  line.

A comment right behind a type that ends in a slash is the one thing that is told apart otherwise
than it was written (`Field.loses_slash`).
-/

namespace FieldHint.Body

open Scan (Passes)

/-! ## Trees -/

/-- The fields of an inline struct, first to last: each is followed by the others, and one whose
type is a struct itself holds the fields of that. -/
inductive InlineFields
  | none
  | plain (name typeExpr : Text) (others : InlineFields)
  | struct (name : Text) (inner others : InlineFields)

/-- How an inline struct starts. -/
def opening : Text := Header.structKeyword ++ [' ', '{']

/-- An inline struct on one line, by the rows of its fields. -/
def oneLine (rows : List Text) : Text :=
  if rows.isEmpty then opening ++ [' ', '}']
  else opening ++ [' '] ++ Text.join [';', ' '] rows ++ [' ', '}']

/-- A type in which nothing can be taken for the end of a line or of a field. -/
structure IsPlainType (t : Text) : Prop where
  ne_nil : t ≠ []
  strip : Text.strip t = t
  no_comment : ¬ Comment.mark <:+: t
  chars : ∀ c ∈ t, c ∉ ['\n', '{', '}', ';', '\x60']

theorem isPlainType_iff {t : Text} :
    IsPlainType t ↔ (t ≠ [] ∧ Text.strip t = t) ∧ ¬ Comment.mark <:+: t ∧
      ∀ c ∈ t, c ∉ ['\n', '{', '}', ';', '\x60'] :=
  ⟨fun h => ⟨⟨h.ne_nil, h.strip⟩, h.no_comment, h.chars⟩, fun h => ⟨h.1.1, h.1.2, h.2.1, h.2.2⟩⟩

instance (t : Text) : Decidable (IsPlainType t) :=
  have : Decidable (∀ c ∈ t, c ∉ ['\n', '{', '}', ';', '\x60']) := List.decidableBAll _ t
  decidable_of_iff _ isPlainType_iff.symm

namespace InlineFields

/-- The fields, each on one line. -/
def rows : InlineFields → List Text
  | none => []
  | plain name typeExpr others => (name ++ ' ' :: typeExpr) :: others.rows
  | struct name inner others => (name ++ ' ' :: oneLine inner.rows) :: others.rows

/-- The fields over several lines: each plain field, opener and closer has its own. -/
def lines : InlineFields → List Text
  | none => []
  | plain name typeExpr others => (name ++ ' ' :: typeExpr) :: others.lines
  | struct name inner others =>
    (name ++ ' ' :: opening) :: (inner.lines ++ ['}'] :: others.lines)

/-- Every field has a name and a plain type, or is a struct of such fields. -/
def WellFormed : InlineFields → Prop
  | none => True
  | plain name typeExpr others => Text.IsName name ∧ IsPlainType typeExpr ∧ others.WellFormed
  | struct name inner others => Text.IsName name ∧ inner.WellFormed ∧ others.WellFormed

instance : (fs : InlineFields) → Decidable fs.WellFormed
  | none => isTrue trivial
  | plain name typeExpr others =>
    have : Decidable others.WellFormed := instDecidableWellFormed others
    inferInstanceAs (Decidable (Text.IsName name ∧ IsPlainType typeExpr ∧ others.WellFormed))
  | struct name inner others =>
    have : Decidable inner.WellFormed := instDecidableWellFormed inner
    have : Decidable others.WellFormed := instDecidableWellFormed others
    inferInstanceAs (Decidable (Text.IsName name ∧ inner.WellFormed ∧ others.WellFormed))

end InlineFields

variable {fs : InlineFields} {above below closer l name t typeExpr : Text}
  {ls rest rows : List Text} {d d' e : Int} {m : Mode}

/-! ## Joining the lines of a tree -/

/-- What the seam below a line is, if the line under it is no closer. -/
def seamBelow (above : Text) : Text := if above.getLast? = some '{' then [' '] else [';', ' ']

/-- Rows under a line, with what joins them to it. -/
def lead (above : Text) (rows : List Text) : Text :=
  if rows.isEmpty then [] else seamBelow above ++ Text.join [';', ' '] rows

theorem seam_of_head (h : below.head? ≠ some '}') : seam above below = seamBelow above := by
  simp [seam, seamBelow, h]

theorem seam_closer (h : closer.head? = some '}') : seam above closer = [' '] := by
  simp [seam, h]

theorem lead_congr (h : above.getLast? = below.getLast?) (rows : List Text) :
    lead above rows = lead below rows := by
  unfold lead seamBelow
  rw [h]

/-- The first of several rows, and the others under it. -/
theorem lead_cons (h : l.getLast? ≠ some '{') (rows : List Text) :
    lead above (l :: rows) = seamBelow above ++ (l ++ lead l rows) := by
  cases rows with
  | nil => simp [lead, Text.join]
  | cons r rows => simp [lead, seamBelow, h, Text.join, List.intercalate_cons_cons]

theorem getLast?_opening (t : Text) : (t ++ opening).getLast? = some '{' := by
  have hSplit : t ++ opening = t ++ Header.structKeyword ++ [' '] ++ ['{'] := by simp [opening]
  rw [hSplit, List.getLast?_concat]

/-- On one line as over several, the rows stand under the opening. -/
theorem oneLine_eq (rows : List Text) :
    oneLine rows = opening ++ (lead opening rows ++ [' ', '}']) := by
  have hSeam : seamBelow opening = [' '] := if_pos (getLast?_opening [])
  unfold oneLine lead
  cases rows <;> simp [hSeam]

theorem getLast?_oneLine (t : Text) (rows : List Text) :
    (t ++ oneLine rows).getLast? = some '}' := by
  have hSplit : t ++ oneLine rows = t ++ (opening ++ lead opening rows ++ [' ']) ++ ['}'] := by
    simp [oneLine_eq]
  rw [hSplit, List.getLast?_concat]

theorem head?_named (hName : Text.IsName name) (t : Text) :
    (name ++ t).head? ≠ some '}' := by
  rw [List.head?_append_of_ne_nil _ hName.ne_nil]
  intro h
  exact absurd (hName.chars '}' (List.mem_of_head? h)) (by decide)

theorem IsPlainType.getLast?_ne (h : IsPlainType typeExpr) (name : Text) :
    (name ++ ' ' :: typeExpr).getLast? ≠ some '{' := by
  rw [List.getLast?_append_of_ne_nil _ (by simp), List.getLast?_cons_of_ne_nil h.ne_nil]
  intro hLast
  exact h.chars '{' (List.mem_of_getLast? hLast) (by simp)

/-- The lines of a tree between a line and a closer are joined to its rows. -/
theorem joinLines_lines (h : fs.WellFormed) (hCloser : closer.head? = some '}') (above : Text)
    (rest : List Text) :
    joinLines (above :: (fs.lines ++ closer :: rest)) =
      above ++ (lead above fs.rows ++ ' ' :: joinLines (closer :: rest)) := by
  -- the line above, the closer and what is behind it change on the way down
  induction fs generalizing above closer rest with
  | none =>
    show joinLines (above :: closer :: rest) = above ++ (lead above [] ++ _)
    rw [joinLines, seam_closer hCloser]
    simp [lead]
  | plain name typeExpr others ih =>
    obtain ⟨hName, hType, hOthers⟩ := h
    show joinLines (above :: (name ++ ' ' :: typeExpr) :: (others.lines ++ closer :: rest)) =
      above ++ (lead above ((name ++ ' ' :: typeExpr) :: others.rows) ++ _)
    rw [joinLines, seam_of_head (head?_named hName _), ih hOthers hCloser,
      lead_cons (hType.getLast?_ne name)]
    simp only [List.append_assoc]
  | struct name inner others ihInner ihOthers =>
    obtain ⟨hName, hInner, hOthers⟩ := h
    have hOpener : (name ++ ' ' :: opening).getLast? = opening.getLast? := by
      have hSplit : name ++ ' ' :: opening = (name ++ [' ']) ++ opening := by simp
      rw [hSplit, getLast?_opening, ← List.nil_append opening, getLast?_opening]
    have hRow : (name ++ ' ' :: oneLine inner.rows).getLast? = ['}'].getLast? := by
      have hSplit : name ++ ' ' :: oneLine inner.rows = (name ++ [' ']) ++ oneLine inner.rows := by
        simp
      rw [hSplit, getLast?_oneLine]
      rfl
    have hLines : (InlineFields.struct name inner others).lines ++ closer :: rest =
        (name ++ ' ' :: opening) :: (inner.lines ++ ['}'] :: (others.lines ++ closer :: rest)) := by
      simp [InlineFields.lines]
    -- the inner fields end at the closer of the struct, the others go on under that
    calc joinLines (above :: ((InlineFields.struct name inner others).lines ++ closer :: rest))
        = above ++ (seamBelow above ++ joinLines ((name ++ ' ' :: opening) ::
            (inner.lines ++ ['}'] :: (others.lines ++ closer :: rest)))) := by
          rw [hLines, joinLines, seam_of_head (head?_named hName _), List.append_assoc]
      _ = above ++ (seamBelow above ++ (name ++ ' ' :: opening ++ (lead opening inner.rows ++
            ' ' :: joinLines (['}'] :: (others.lines ++ closer :: rest))))) := by
          rw [ihInner hInner rfl, lead_congr hOpener]
      _ = above ++ (seamBelow above ++ ((name ++ ' ' :: oneLine inner.rows) ++
            (lead ['}'] others.rows ++ ' ' :: joinLines (closer :: rest)))) := by
          rw [ihOthers hOthers hCloser, oneLine_eq]
          simp
      _ = _ := by
          rw [InlineFields.rows, lead_cons (by rw [hRow]; simp), lead_congr hRow]
          simp

/-! ## Splitting the lines of a tree -/

/-- Lines that the splitter reads one by one from depth `d` to depth `e`, and never leaves the
braces at the end of a line. -/
inductive Enclosed : Int → List Text → Int → Prop
  | nil {d : Int} : Enclosed d [] d
  | line {d d' e : Int} {m : Mode} {l : Text} {ls : List Text}
      (passes : Passes ⟨.code, d⟩ l ⟨m, d'⟩) (code : m.isCode = true) (inside : 0 < d')
      (others : Enclosed d' ls e) : Enclosed d (l :: ls) e

theorem Enclosed.append (h : Enclosed d ls d') (h' : Enclosed d' rest e) :
    Enclosed d (ls ++ rest) e := by
  induction h with
  | nil => exact h'
  | line hPasses hCode hInside _ ih => exact .line hPasses hCode hInside (ih h')

theorem passes_named (hName : Text.IsName name)
    {gap : Text} (hGap : gap.IsGap) (ht : Passes ⟨.code, d⟩ t ⟨m, d'⟩) :
    Passes ⟨.code, d⟩ (name ++ (gap ++ t)) ⟨m, d'⟩ :=
  (Scan.passes_inert hName.ne_nil (fun c hc => Scan.isInert_of_isWord (hName.chars c hc))
    rfl).append
    ((Scan.passes_gap hGap rfl).append ht)

theorem passes_opening (d : Int) : Passes ⟨.code, d⟩ opening ⟨.code, d + 1⟩ :=
  Scan.passes_structKeyword.append
    ((Scan.passes_gap Text.isGap_space rfl).append (Scan.passes_open rfl))

theorem IsPlainType.passes (h : IsPlainType typeExpr) (hd : 0 ≤ d) :
    Passes ⟨.code, d⟩ typeExpr ⟨Text.endMode typeExpr, d⟩ := by
  have hNot : ∀ {c : Char}, c ∈ ['\n', '{', '}', ';', '\x60'] → c ∉ typeExpr :=
    fun hc hMem => h.chars _ hMem hc
  refine Scan.passes_bare ⟨hNot (by simp), h.no_comment, hNot (by simp), ?_⟩
    (.of_not_mem (hNot (by simp)) (hNot (by simp))) hd
  intro p hp
  exact absurd (hp.subset (by simp)) (hNot (c := ';') (by simp))

/-- Inside braces, the lines of a tree lead back to the depth that they start from. -/
theorem InlineFields.enclosed (h : fs.WellFormed) (hd : 0 < d) : Enclosed d fs.lines d := by
  induction fs generalizing d with
  | none => exact .nil
  | plain name typeExpr others ih =>
    obtain ⟨hName, hType, hOthers⟩ := h
    exact .line (passes_named hName Text.isGap_space (hType.passes hd.le))
      (Text.isCode_endMode (M := Mode) typeExpr) hd (ih hOthers hd)
  | struct name inner others ihInner ihOthers =>
    obtain ⟨hName, hInner, hOthers⟩ := h
    have hDeeper : 0 < d + 1 := by omega
    refine .line (passes_named hName Text.isGap_space (passes_opening d)) rfl hDeeper ?_
    exact (ihInner hInner hDeeper).append
      (.line (Scan.passes_close rfl) rfl hd (ihOthers hOthers hd))

/-! ## Lines as they are laid out -/

/-- A line: its indentation, its code, which may be empty, and a remark. -/
structure Line where
  indent : Text := []
  code : Text := []
  remark : Remark := {}

namespace Line

/-- The line as it is written. -/
def text (l : Line) : Text := l.indent ++ (l.code ++ l.remark.text)

/-- The parts of the line can be told apart. -/
structure WellFormed (l : Line) : Prop where
  indent : l.indent.IsPadding
  remark : l.remark.WellFormed
  apart : l.remark.Apart l.code

theorem wellFormed_iff {l : Line} :
    l.WellFormed ↔ l.indent.IsPadding ∧ l.remark.WellFormed ∧ l.remark.Apart l.code :=
  ⟨fun h => ⟨h.indent, h.remark, h.apart⟩, fun h => ⟨h.1, h.2.1, h.2.2⟩⟩

instance (l : Line) : Decidable l.WellFormed := decidable_of_iff _ wellFormed_iff.symm

end Line

/-- The lines one under the other. -/
def Line.block (ls : List Line) : Text := ls.flatMap fun l => l.text ++ ['\n']

/-- The code of the lines, without blank lines and comments. -/
def Line.codes (ls : List Line) : List Text :=
  (ls.map Line.code).filter fun code => !code.isEmpty

/-! ## Reading the lines -/

/-- Text that is left of a line when its indentation and its comment are gone. -/
structure IsCode (t : Text) : Prop extends Row.Unmarked t where
  strip : Text.strip t = t
  no_newline : '\n' ∉ t

theorem IsCode.nil : IsCode [] := ⟨⟨by simp, by simp [Comment.mark]⟩, rfl, by simp⟩

/-- A name, a gap and code are code. -/
theorem IsCode.named (ht : IsCode t) (hne : t ≠ []) (hName : Text.IsName name) {gap : Text}
    (hGap : gap.IsGap) : IsCode (name ++ (gap ++ t)) where
  strip := by
    rw [Text.strip_eq_self_iff]
    constructor
    · rw [List.head?_append_of_ne_nil _ hName.ne_nil]
      exact hName.head_solid
    · rw [← List.append_assoc, List.getLast?_append_of_ne_nil _ hne]
      exact (Text.strip_eq_self_iff.mp ht.strip).2
  no_comment := by
    have hSlash : '/' ∉ name ++ gap := by
      simp [hName.not_mem (c := '/') (by decide),
        hGap.2.not_mem (c := '/') (by decide)]
    rw [← List.append_assoc, Comment.mark_infix_append_iff]
    rintro (h | h | ⟨h, -⟩)
    · exact Text.not_infix_of_not_mem (by decide) hSlash h
    · exact ht.no_comment h
    · exact hSlash (List.mem_of_getLast? h)
  no_backtick := by
    simp [hName.not_mem (c := '\x60') (by decide),
      hGap.2.not_mem (c := '\x60') (by decide), ht.no_backtick]
  no_newline := by
    simp [hName.not_mem (c := '\n') (by decide), hGap.2.no_newline, ht.no_newline]

theorem isCode_opening : IsCode opening := ⟨⟨by decide, by decide⟩, by decide, by decide⟩

theorem isCode_closer : IsCode ['}'] := ⟨⟨by decide, by decide⟩, by decide, by decide⟩

theorem IsPlainType.isCode (h : IsPlainType typeExpr) : IsCode typeExpr :=
  ⟨⟨fun hc => h.chars _ hc (by simp), h.no_comment⟩, h.strip, fun hc => h.chars _ hc (by simp)⟩

theorem InlineFields.isCode_of_mem_lines (h : fs.WellFormed) : ∀ l ∈ fs.lines, IsCode l := by
  induction fs with
  | none => simp [lines]
  | plain name typeExpr others ih =>
    obtain ⟨hName, hType, hOthers⟩ := h
    exact List.forall_mem_cons.mpr
      ⟨hType.isCode.named hType.ne_nil hName Text.isGap_space, ih hOthers⟩
  | struct name inner others ihInner ihOthers =>
    obtain ⟨hName, hInner, hOthers⟩ := h
    have hOpener : IsCode (name ++ ' ' :: opening) :=
      isCode_opening.named (by decide) hName Text.isGap_space
    refine List.forall_mem_cons.mpr ⟨hOpener, ?_⟩
    rw [List.forall_mem_append, List.forall_mem_cons]
    exact ⟨ihInner hInner, isCode_closer, ihOthers hOthers⟩

namespace Line

variable {line : Line}

theorem no_newline (h : line.WellFormed) (hCode : IsCode line.code) : '\n' ∉ line.text := by
  simp [text, h.indent.no_newline, hCode.no_newline, h.remark.no_newline]

/-- Cutting and stripping a line leaves its code. -/
theorem strip_cut (h : line.WellFormed) (hCode : IsCode line.code) :
    Text.strip (Comment.cut line.text) = line.code := by
  have hIndent : '/' ∉ line.indent := h.indent.not_mem (by decide)
  have hMark : ¬ Comment.mark <:+: line.indent ++ line.code := by
    rw [Comment.mark_infix_append_iff]
    rintro (hIn | hIn | ⟨hIn, -⟩)
    · exact Text.not_infix_of_not_mem (by decide) hIndent hIn
    · exact hCode.no_comment hIn
    · exact hIndent (List.mem_of_getLast? hIn)
  have hApart : line.remark.Apart (line.indent ++ line.code) := by
    intro hSome hLast
    -- a slash before the mark would be one of the code
    rw [List.append_assoc] at hLast
    by_cases hEmpty : line.code ++ line.remark.pad = []
    · rw [hEmpty, List.append_nil] at hLast
      exact hIndent (List.mem_of_getLast? hLast)
    · rw [List.getLast?_append_of_ne_nil _ hEmpty] at hLast
      exact h.apart hSome hLast
  rw [text, ← List.append_assoc, Remark.strip_cut h.remark hMark hApart,
    Text.strip_blank_append h.indent.isBlank, hCode.strip]

/-- The splitter reads a line to its end, and is in code behind it. -/
theorem passes_text (h : line.WellFormed) (hCode : Passes ⟨.code, d⟩ line.code ⟨m, d'⟩)
    (hm : m.isCode = true) (hInside : 0 < d') :
    Passes ⟨.code, d⟩ (line.text ++ ['\n']) ⟨.code, d'⟩ := by
  obtain ⟨m', hRemark⟩ := Remark.passes (d := d') h.remark hm
  have hSplits : Scan.splitsAt ⟨m', d'⟩ '\n' = false := by
    have hOpen : ¬ d' ≤ 0 := by omega
    simp [Scan.splitsAt, hOpen]
  exact ((Scan.passes_indent h.indent).append (hCode.append hRemark)).append
    (.char hSplits (Scan.step_newline m' d'))

theorem block_cons (line : Line) (ls : List Line) :
    block (line :: ls) = line.text ++ ['\n'] ++ block ls :=
  rfl

theorem codes_cons (line : Line) (ls : List Line) :
    codes (line :: ls) = [line.code].filter (fun code => !code.isEmpty) ++ codes ls := by
  rw [codes, List.map_cons, ← List.singleton_append, List.filter_append]
  rfl

/-- The splitter keeps lines together if it does so with their code. -/
theorem passes_block {ls : List Line} (hLines : ∀ l ∈ ls, l.WellFormed)
    (h : Enclosed d (codes ls) e) (hd : 0 < d) : Passes ⟨.code, d⟩ (block ls) ⟨.code, e⟩ := by
  induction ls generalizing d with
  | nil =>
    cases h
    exact .nil
  | cons line ls ih =>
    rw [List.forall_mem_cons] at hLines
    rw [block_cons]
    rw [codes_cons] at h
    by_cases hCode : line.code = []
    · -- a blank line or a comment leaves the depth as it is
      rw [hCode] at h
      have hEmpty : Passes ⟨.code, d⟩ line.code ⟨.code, d⟩ := hCode ▸ .nil
      exact (passes_text hLines.1 hEmpty rfl hd).append (ih hLines.2 h hd)
    · rw [List.filter_cons_of_pos (by simpa using hCode)] at h
      cases h with
      | line hPasses hm hInside hRest =>
        exact (passes_text hLines.1 hPasses hm hInside).append (ih hLines.2 hRest hInside)

/-- In front of another line, lines are folded to their code. -/
theorem foldParts_block {ls : List Line} (hLines : ∀ l ∈ ls, l.WellFormed ∧ IsCode l.code)
    (hLined : Text.isLined (block ls ++ t) = true) (ht : t ≠ []) :
    foldParts (block ls ++ t) = codes ls ++ foldParts t := by
  induction ls with
  | nil => rfl
  | cons line ls ih =>
    rw [List.forall_mem_cons] at hLines
    have hSplit : block (line :: ls) ++ t = line.text ++ '\n' :: (block ls ++ t) := by
      simp [block_cons]
    rw [hSplit] at hLined ⊢
    obtain ⟨hFirst, hRest⟩ := Text.isLined_of_append hLined
    rw [Text.isLined_cons_iff] at hRest
    rw [foldParts_append_newline hFirst (no_newline hLines.1.1 hLines.1.2) (by simp [ht]),
      strip_cut hLines.1.1 hLines.1.2, ih hLines.2 hRest.2, codes_cons, List.append_assoc]

end Line

/-! ## The field -/

/-- A field with an inline struct for its type, over several lines: the opener, the lines of the
inner fields, and the closer with an optional tag and comment. -/
structure InlineLayout where
  name : Text
  fields : InlineFields
  indent : Text := []
  gap : Text := [' ']
  opened : Remark := {}
  lines : List Line
  outdent : Text := []
  beforeTag : Text := [' ']
  tag : Option Text := none
  closed : Remark := {}

namespace InlineLayout

variable {l : InlineLayout}

/-- The line of the opener. -/
def opener (l : InlineLayout) : Line := ⟨l.indent, l.name ++ (l.gap ++ opening), l.opened⟩

/-- The tag with the blanks in front of it. -/
def tagText (l : InlineLayout) : Text := Spacing.tagText { beforeTag := l.beforeTag } l.tag

/-- What follows the closing brace. -/
def trailer (l : InlineLayout) : Text := l.tagText ++ l.closed.text

/-- The field as it is written. -/
def text (l : InlineLayout) : Text :=
  Line.block (l.opener :: l.lines) ++ (l.outdent ++ '}' :: l.trailer)

/-- The field as it is meant. -/
def field (l : InlineLayout) : Field := ⟨l.name, oneLine l.fields.rows, l.tag, l.closed.said?⟩

/-- The inner fields are laid out on the lines between, with blank lines and comments among them,
and only line feeds end a line, perhaps behind a carriage return. -/
structure WellFormed (l : InlineLayout) : Prop where
  name : Text.IsName l.name
  fields : l.fields.WellFormed
  gap : l.gap.IsGap
  opener : l.opener.WellFormed
  lines : ∀ line ∈ l.lines, line.WellFormed
  spread : Line.codes l.lines = l.fields.lines
  outdent : l.outdent.IsPadding
  beforeTag : l.beforeTag.IsPadding
  tag : ∀ tag ∈ l.tag, '\x60' ∉ tag ∧ '\n' ∉ tag
  closed : l.closed.WellFormed
  lined : Text.isLined l.text = true

theorem WellFormed.isCode (h : l.WellFormed) :
    ∀ line ∈ l.opener :: l.lines, line.WellFormed ∧ IsCode line.code := by
  refine List.forall_mem_cons.mpr ⟨⟨h.opener, ?_⟩, ?_⟩
  · exact isCode_opening.named (by decide) h.name h.gap
  · intro line hLine
    refine ⟨h.lines line hLine, ?_⟩
    -- a line is empty, or it is one of the lines of the tree
    by_cases hCode : line.code = []
    · exact hCode ▸ .nil
    · refine InlineFields.isCode_of_mem_lines h.fields _ ?_
      rw [← h.spread]
      exact List.mem_filter.mpr ⟨List.mem_map_of_mem hLine, by simpa using hCode⟩

theorem passes_tagText (h : l.WellFormed) :
    ∃ m, m.isCode = true ∧ Passes ⟨.code, d⟩ l.tagText ⟨m, d⟩ := by
  unfold tagText
  cases hTag : l.tag with
  | none => exact ⟨.code, rfl, .nil⟩
  | some tag =>
    obtain ⟨hTick, hNewline⟩ := h.tag tag hTag
    obtain ⟨m, hm, hPad⟩ := Scan.passes_padding (d := d) h.beforeTag (m := .code) rfl
    exact ⟨.code, rfl, hPad.append (Scan.passes_tag hTick hNewline hm)⟩

/-- The splitter reads the field in one piece. -/
theorem passes (h : l.WellFormed) : ∃ m, Passes {} l.text ⟨m, 0⟩ := by
  have hOpener : Passes ⟨.code, 0⟩ (l.opener.text ++ ['\n']) ⟨.code, 1⟩ :=
    Line.passes_text h.opener (passes_named h.name h.gap (passes_opening 0)) rfl one_pos
  have hInner : Passes ⟨.code, 1⟩ (Line.block l.lines) ⟨.code, 1⟩ :=
    Line.passes_block h.lines (h.spread ▸ InlineFields.enclosed h.fields one_pos) one_pos
  have hClose : Passes ⟨.code, 1⟩ (l.outdent ++ ['}']) ⟨.code, 0⟩ :=
    (Scan.passes_indent h.outdent).append (Scan.passes_close (d := 0) rfl)
  obtain ⟨m, hm, hTag⟩ := passes_tagText (d := 0) h
  obtain ⟨m', hRemark⟩ := Remark.passes (d := 0) h.closed hm
  refine ⟨m', ?_⟩
  have hSplit : l.text = l.opener.text ++ ['\n'] ++ (Line.block l.lines ++
      (l.outdent ++ ['}'] ++ (l.tagText ++ l.closed.text))) := by
    simp [text, Line.block_cons, trailer]
  rw [hSplit]
  exact hOpener.append (hInner.append (hClose.append (hTag.append hRemark)))

/-- The field is folded to its one-line form, with what stands behind its closing brace. -/
theorem tidy_text (h : l.WellFormed) :
    tidy l.text = l.name ++ (l.gap ++ (oneLine l.fields.rows ++ Text.stripEnd l.trailer)) := by
  have hLast : '\n' ∉ l.outdent ++ '}' :: l.trailer := by
    have hTag : '\n' ∉ l.tagText := by
      unfold tagText
      cases hTag : l.tag with
      | none => simp [Spacing.tagText]
      | some tag => simp [Spacing.tagText, h.beforeTag.no_newline, (h.tag tag hTag).2]
    simp [trailer, h.outdent.no_newline, hTag, h.closed.no_newline]
  have hStripLast : Text.strip (l.outdent ++ '}' :: l.trailer) =
      '}' :: Text.stripEnd l.trailer := by
    rw [Text.strip_blank_append h.outdent.isBlank, Text.strip_cons (by decide)]
  -- there is a line feed between the name and the closing brace, so the field is folded
  have hKept : '\n' ∈ Text.strip l.text := by
    obtain ⟨c, name, hName⟩ := List.exists_cons_of_ne_nil h.name.ne_nil
    have hIndent : ∀ c ∈ l.indent, Text.isBlank c = true := h.opener.indent.isBlank
    have hSolid : Text.isBlank c = false :=
      Text.isBlank_of_isWord (h.name.chars c (hName ▸ List.mem_cons_self))
    have hSplit : l.text = l.indent ++ c :: ((name ++ (l.gap ++ opening) ++ l.opened.text ++
        '\n' :: (Line.block l.lines ++ l.outdent)) ++ '}' :: l.trailer) := by
      simp [text, Line.block_cons, Line.text, opener, hName]
    rw [hSplit, Text.strip_blank_append hIndent, Text.strip_cons hSolid,
      Text.stripEnd_append_cons (by decide)]
    simp
  have hLined := h.lined
  rw [text] at hLined
  have hParts : foldParts l.text =
      (l.name ++ (l.gap ++ opening)) :: (l.fields.lines ++ ['}' :: Text.stripEnd l.trailer]) := by
    have hOpener : Line.codes (l.opener :: l.lines) =
        (l.name ++ (l.gap ++ opening)) :: l.fields.lines := by
      rw [Line.codes_cons, h.spread, List.filter_cons_of_pos (by simp [opener, h.name.ne_nil])]
      rfl
    rw [text, Line.foldParts_block h.isCode hLined (by simp), hOpener,
      foldParts_line (Text.isLined_of_append hLined).2 hLast (by simp [hStripLast]), hStripLast]
    rfl
  have hOpening : (l.name ++ (l.gap ++ opening)).getLast? = opening.getLast? := by
    rw [← List.append_assoc, getLast?_opening, ← List.nil_append opening, getLast?_opening]
  rw [tidy, if_pos hKept, fold_eq, hParts, joinLines_lines h.fields rfl, lead_congr hOpening,
    oneLine_eq]
  simp [joinLines]

/-- What stands behind the closing brace is read as the tag and the comment. -/
theorem exists_trailer (h : l.WellFormed) :
    ∃ pad tail, Text.stripEnd l.trailer = pad ++ tail ∧ (∀ c ∈ pad, Text.isBlank c = true) ∧
      (tail = [] ∨ Row.atMark tail = true) ∧ Row.trailer? tail = some (l.tag, l.closed.said?) := by
  have hComment := Remark.comment?_trimmed h.closed
  unfold trailer tagText
  cases hTag : l.tag with
  | some tag =>
    -- the blanks stand in front of the tag, and the remark behind it
    refine ⟨l.beforeTag, '\x60' :: (tag ++ '\x60' :: l.closed.trimmed), ?_,
      h.beforeTag.isBlank, Or.inr rfl, ?_⟩
    · have hTagText : Spacing.tagText { beforeTag := l.beforeTag } (some tag) =
          l.beforeTag ++ '\x60' :: tag ++ ['\x60'] := by simp [Spacing.tagText]
      have hLast : ∀ c ∈ (l.beforeTag ++ '\x60' :: tag ++ ['\x60']).getLast?,
          Text.isBlank c = false := by
        rw [List.getLast?_concat]
        rintro _ ⟨⟩
        decide
      rw [hTagText, Remark.stripEnd_append_text h.closed hLast]
      simp
    · rw [Row.trailer?_tag (h.tag tag hTag).1, hComment]
      rfl
  | none =>
    show ∃ pad tail, Text.stripEnd ([] ++ l.closed.text) = pad ++ tail ∧ _
    rw [Remark.stripEnd_append_text h.closed (by simp), List.nil_append]
    have hPad := h.closed.pad.isBlank
    unfold Remark.trimmed Remark.said?
    cases l.closed.comment with
    | none => exact ⟨[], [], rfl, by simp, Or.inl rfl, rfl⟩
    | some said =>
      refine ⟨l.closed.pad, '/' :: '/' :: Text.stripEnd said, rfl, hPad, Or.inr rfl, ?_⟩
      rw [Row.trailer?_comment, Text.strip_stripEnd]
      rfl

end InlineLayout

/-- The one-line form holds no mark, since the lines that it can be joined from hold none. -/
theorem unmarked_oneLine (h : fs.WellFormed) : Row.Unmarked (oneLine fs.rows) := by
  have hJoin : joinLines (opening :: fs.lines ++ [['}'] ++ []]) = oneLine fs.rows := by
    rw [List.append_nil, List.cons_append, joinLines_lines h rfl, oneLine_eq]
    rfl
  have hLines : ∀ l ∈ opening :: fs.lines, Row.Unmarked l :=
    List.forall_mem_cons.mpr ⟨isCode_opening.toUnmarked,
      fun l hl => (InlineFields.isCode_of_mem_lines h l hl).toUnmarked⟩
  obtain ⟨v, hv, hUnmarked, -⟩ := exists_joinLines hLines isCode_closer.toUnmarked []
  rw [hJoin, List.append_nil] at hv
  exact hv ▸ hUnmarked

theorem strip_oneLine (rows : List Text) : Text.strip (oneLine rows) = oneLine rows := by
  have hLast : (oneLine rows).getLast? = some '}' := getLast?_oneLine [] rows
  rw [Text.strip_eq_self_iff, hLast, oneLine_eq]
  constructor
  · rintro _ ⟨⟩
    decide
  · rintro _ ⟨⟩
    decide

end FieldHint.Body

namespace FieldHint.Field

open Body

variable {l : InlineLayout}

/-- A field with an inline struct over several lines is read as one field: its type is the struct on
one line, however it was laid out, and its tag and its comment are those of the last line. -/
theorem ofBody_inlineLayout (h : l.WellFormed) : ofBody l.text = [l.field] := by
  obtain ⟨m, hPasses⟩ := InlineLayout.passes h
  obtain ⟨pad, tail, hTrailer, hPad, hMark, hRead⟩ := InlineLayout.exists_trailer h
  have hType : oneLine l.fields.rows ≠ [] := by simp [oneLine_eq, opening]
  have hLast : (oneLine l.fields.rows).getLast? = some '}' := getLast?_oneLine [] l.fields.rows
  have hSeam : ¬ ((oneLine l.fields.rows).getLast? = some '/' ∧
      (pad ++ tail).head? = some '/') := by
    rw [hLast]
    simp
  have hField := Row.field?_row h.name.ne_nil h.name.chars h.gap.1 h.gap.2.isBlank hType
    (strip_oneLine l.fields.rows) (unmarked_oneLine h.fields) hPad hMark hSeam hRead
  rw [ofBody_of_passes hPasses, InlineLayout.tidy_text h, hTrailer,
    Row.ofLine_of_name h.name.ne_nil h.name.chars hField]
  rfl

/-- Two levels of structs, one of them empty, with a blank line and with comments that hold marks
and braces. -/
def thornyLayout : InlineLayout where
  name := ['P']
  fields := .plain ['a'] ['T']
    (.struct ['Q'] (.struct ['R'] .none (.plain ['b'] ['[', ']', 'U'] .none)) .none)
  indent := ['\t']
  opened := ⟨[' '], some ['\x60', '{']⟩
  lines :=
    [{}, { indent := [' '], code := ['a', ' ', 'T'], remark := ⟨[], some ['}']⟩ },
      { remark := ⟨['\t'], some [';', '/', '/']⟩ }, { code := 'Q' :: ' ' :: opening },
      { indent := ['\t'], code := 'R' :: ' ' :: opening },
      { code := ['}'], remark := ⟨[' '], none⟩ }, { code := ['b', ' ', '[', ']', 'U'] },
      { code := ['}'] }]
  outdent := ['\t']
  tag := some ['{']
  closed := ⟨[' '], some [' ', 'd', ' ']⟩

/-- The theorem at a tree with what would end a line, a field or a type in its comments. -/
theorem ofBody_inlineLayout_thorny :
    thornyLayout.WellFormed ∧
      ofBody thornyLayout.text =
        [⟨['P'], "struct \x7b a T; Q struct \x7b R struct \x7b \x7d; b []U \x7d \x7d".toList,
          some ['{'], some ['d']⟩] := by
  have hLayout : thornyLayout.WellFormed :=
    { name := by decide
      fields := by decide
      gap := by decide
      opener := by decide
      lines := by decide
      spread := by decide
      outdent := by decide
      beforeTag := by decide
      tag := by
        rintro _ ⟨⟩
        decide
      closed := by decide
      lined := by decide }
  refine ⟨hLayout, ?_⟩
  rw [ofBody_inlineLayout hLayout]
  decide

/-- A type that ends in a slash, with a comment right behind it. -/
def slashLayout : InlineLayout where
  name := ['P']
  fields := .plain ['a'] ['T', '/'] .none
  lines := [{ code := ['a', ' ', 'T', '/'], remark := ⟨[], some ['x']⟩ }]

/-- The comment of a line starts with the first two slashes, so it takes one from the type. -/
theorem loses_slash :
    slashLayout.fields.WellFormed ∧ Line.codes slashLayout.lines = slashLayout.fields.lines ∧
      (∀ line ∈ slashLayout.lines, line.indent.IsPadding ∧ line.remark.WellFormed) ∧
      ofBody slashLayout.text ≠ [slashLayout.field] := by
  have hFields : slashLayout.fields.WellFormed := by decide
  have hSpread : Line.codes slashLayout.lines = slashLayout.fields.lines := rfl
  refine ⟨hFields, hSpread, ?_, ?_⟩
  · decide
  · decide

end FieldHint.Field
