import FieldHint.Help.Report
import FieldHint.Proofs.Body.Grammar

/-!
# Reports — rows that read back

The row that a report shows for a field is the field in its plainest spelling: single spaces, and no
tag that is empty. Whatever line the field was read from, and whatever blanks, slashes and line
breaks it was written with there, the row is read as the field again.

What makes it so is that the parts of a field that was read can be told apart
(`Declares.delimited`): its type is stripped and holds no mark, its tag no backtick, and its comment
is stripped and not empty. A space in front of every mark keeps the mark away from a slash at the
end of the type.

* `Field.Delimited.ofLine_row` — the row of such a field is read as the field;
* `Report.rows_readBack` — the rows of a report are read as the fields they show, time and again.
-/

namespace FieldHint

variable {line : Text} {f : Field} {tag doc : Option Text} {tail : Text}

/-! ## What is read can be told apart -/

namespace Row

theorem IsTrailer.tag_no_backtick (h : IsTrailer tag doc tail) : ∀ t ∈ tag, '\x60' ∉ t := by
  cases h with
  | nothing | comment _ => simp
  | tag hTick _ | tagComment _ hTick _ => simpa using hTick

theorem IsTrailer.doc_stripped (h : IsTrailer tag doc tail) :
    ∀ t ∈ doc, t ≠ [] ∧ Text.strip t = t := by
  have hSaid : ∀ said, ∀ t ∈ (Text.strip said).nonempty?, t ≠ [] ∧ Text.strip t = t := by
    intro said t ht
    obtain ⟨rfl, hNe⟩ := Text.nonempty?_eq_some_iff.mp ht
    exact ⟨hNe, Text.strip_strip⟩
  cases h with
  | nothing | tag _ _ => simp
  | comment said | tagComment said _ _ => exact hSaid said

/-- A field that a line declares is one whose parts can be told apart. -/
theorem Declares.delimited (h : Declares line f) : f.Delimited := by
  obtain ⟨hName, -, -, hParts, hType, hTrailer⟩ := h
  exact {
    name := hName
    tag := hTrailer.tag_no_backtick
    doc := hTrailer.doc_stripped
    type_ne_nil := hType
    strip_type := Text.strip_strip
    unmarked_type := hParts.unmarked.of_isInfix Text.strip_isInfix }

end Row

/-! ## Rows -/

namespace Field

/-- The field without its tag if that is empty: what a row shows of it. -/
def withoutEmptyTag (f : Field) : Field := { f with tag := f.tag.bind Text.nonempty? }

theorem Delimited.withoutEmptyTag (h : f.Delimited) : f.withoutEmptyTag.Delimited where
  name := h.name
  tag tag hTag := h.tag tag (mem_of_bind_nonempty? hTag)
  doc := h.doc
  type_ne_nil := h.type_ne_nil
  strip_type := h.strip_type
  unmarked_type := h.unmarked_type

theorem bind_nonempty?_idem (t : Option Text) :
    (t.bind Text.nonempty?).bind Text.nonempty? = t.bind Text.nonempty? := by
  cases t with
  | none => rfl
  | some t =>
    by_cases h : t = []
    · rw [h]
      rfl
    · simp [Text.nonempty?_of_ne_nil h]

theorem withoutEmptyTag_idem (f : Field) :
    f.withoutEmptyTag.withoutEmptyTag = f.withoutEmptyTag := by
  rw [withoutEmptyTag, withoutEmptyTag, bind_nonempty?_idem]

theorem row_withoutEmptyTag (f : Field) : f.withoutEmptyTag.row = f.row := by
  rw [row, row, withoutEmptyTag, bind_nonempty?_idem]
  rfl

/-- The row of a field is spaced with single spaces. -/
theorem Delimited.row_eq (h : f.Delimited) : f.row =
    f.name ++ ([' '] ++ f.typeExpr) ++ Spacing.trailer {} (f.tag.bind Text.nonempty?) f.doc := by
  have hDoc : f.doc.bind Text.nonempty? = f.doc := by
    cases hSome : f.doc with
    | none => rfl
    | some doc => exact Text.nonempty?_of_ne_nil (h.doc doc hSome).1
  rw [row, hDoc]
  -- with or without a tag, with or without a comment
  cases f.tag.bind Text.nonempty? <;> cases f.doc <;>
    simp [Spacing.trailer, Spacing.tagText, Spacing.docText, label]

/-- A row is read as its field, without an empty tag. -/
theorem Delimited.ofLine_row (h : f.Delimited) : Row.ofLine f.row = .field f.withoutEmptyTag := by
  rw [h.row_eq]
  -- a space parts the type from the marks, so a slash at its end meets none of them
  exact Spacing.ofLine_row Spacing.wellFormed_single h.withoutEmptyTag (Spacing.apart_single _ _ _)

end Field

/-! ## Reports -/

namespace Report

theorem drop_marker (active : Bool) (row : Text) : (marker active ++ row).drop 2 = row := by
  cases active <;> rfl

/-- Behind its mark, the row that a report shows for a field that can be told apart is read as the
field. -/
theorem ofLine_of_getElem? {fields : List Field} {n : Nat} (h : f.Delimited)
    (hf : fields[n]? = some f) (active : Option Nat) :
    ((rows active fields)[n]?.map fun row => Row.ofLine (row.drop 2)) =
      some (.field f.withoutEmptyTag) := by
  rw [rows, List.getElem?_mapIdx, hf, Option.map_some, Option.map_some, drop_marker, h.ofLine_row]

/-- Rows read back. Whatever line a field was read from, behind its mark the row that a report shows
for it is read as the field again, but for an empty tag, which is no tag there. Reading and showing
it once more changes nothing: the second row is the first, and it is read the same. -/
theorem rows_readBack (h : Row.ofLine line = .field f) :
    (∀ (active : Option Nat) (fields : List Field) (n : Nat), fields[n]? = some f →
      ((rows active fields)[n]?.map fun row => Row.ofLine (row.drop 2)) =
        some (.field f.withoutEmptyTag)) ∧
    (∀ (active : Option Nat) (fields : List Field) (n : Nat),
      fields[n]? = some f.withoutEmptyTag →
        ((rows active fields)[n]?.map fun row => Row.ofLine (row.drop 2)) =
          some (.field f.withoutEmptyTag)) ∧
    f.withoutEmptyTag.row = f.row := by
  have hDeclares : Row.Declares line f := by
    rw [← Row.field?_eq_some_iff]
    exact Row.field?_of_ofLine (by rw [h]; rfl)
  have hDelimited := hDeclares.delimited
  refine ⟨?_, ?_, Field.row_withoutEmptyTag f⟩
  · intro active fields n hf
    exact ofLine_of_getElem? hDelimited hf active
  · -- the field of the second row can be told apart, too
    intro active fields n hf
    have hAgain := ofLine_of_getElem? hDelimited.withoutEmptyTag hf active
    rwa [Field.withoutEmptyTag_idem] at hAgain

/-- A line with a line separator behind the name, a slash at the end of the type, an empty tag, and
marks in the comment. -/
def slashedLine : Text := "a\u2028[]T/ \x60\x60//\t\x60x\x60 // y\r".toList

/-- The field on that line. -/
def slashedField : Field := ⟨['a'], "[]T/".toList, some [], some "\x60x\x60 // y".toList⟩

/-- The theorem at that line, in a report on the one field. -/
theorem rows_readBack_slashed : Row.ofLine slashedLine = .field slashedField ∧
    ((rows (some 0) [slashedField])[0]?.map fun row => Row.ofLine (row.drop 2)) =
      some (.field { slashedField with tag := none }) := by
  have hLine : Row.ofLine slashedLine = .field slashedField := by decide +kernel
  obtain ⟨hRow, -, -⟩ := rows_readBack hLine
  exact ⟨hLine, hRow (some 0) [slashedField] 0 rfl⟩

end Report

end FieldHint
