import FieldHint.Help.Provider
import FieldHint.Help.Report
import FieldHint.Json.Half
import FieldHint.Proofs.Body.OneLine
import FieldHint.Proofs.Help.Signature

/-!
# Reports — what they show of signature help

A report is made of a struct and the index of a field, signature help of the same two. What a report
shows is therefore a matter of the help alone:

* `Report.shows_text` — the report for people has the label, and a row for each parameter;
* `Report.carries_json` — the report for programs has the help as its last member.
-/

namespace FieldHint

variable {s : Struct} {f : Field} {p : Parameter} {n : Nat}

/-! ## Reports for people -/

namespace Report

/-- A row of a report on some help: it is one line; behind its mark it starts with the piece of the
label that the parameter marks; and the mark is an arrow if the parameter is the active one. -/
structure IsRow (help : SignatureHelp) (label : Text) (n : Nat) (p : Parameter) (row : Text) :
    Prop where
  no_newline : '\n' ∉ row
  label_prefix : label.slice p.start p.stop <+: row.drop 2
  arrow_iff : ['>', ' '] <+: row ↔ help.activeParameter = some n

/-- The lines of a report on some help: the comment of its signature if there is one, the label, and
a row for each parameter in order. -/
def Shows (help : SignatureHelp) (report : Text) : Prop :=
  ∃ signature rows, help.signatures = [signature] ∧
    report = ((signature.doc.bind Text.nonempty?).toList ++ signature.label :: rows).flatMap
      (· ++ ['\n']) ∧
    rows.length = signature.parameters.length ∧
    ∀ n p row, signature.parameters[n]? = some p → rows[n]? = some row →
      IsRow help signature.label n p row

theorem join_newline {ts : List Text} (h : ts ≠ []) :
    Text.join ['\n'] ts ++ ['\n'] = ts.flatMap (· ++ ['\n']) := by
  induction ts with
  | nil => exact absurd rfl h
  | cons t ts ih =>
    cases ts with
    | nil => simp [Text.join]
    | cons u ts =>
      rw [List.flatMap_cons, ← ih (List.cons_ne_nil u ts), Text.join, List.intercalate_cons_cons]
      simp [Text.join]

theorem arrow_prefix_marker_iff (active : Bool) (t : Text) :
    ['>', ' '] <+: marker active ++ t ↔ active = true := by
  cases active <;> simp [marker]

/-- The report on a struct shows its help, if the row of each field is one line. -/
theorem shows_text (hRows : ∀ f ∈ s.fields, '\n' ∉ f.row) (focus : Focus) :
    Shows (SignatureHelp.ofStruct s focus.activeField) (text s focus ++ ['\n']) := by
  refine ⟨Signature.ofStruct s,
    rows (SignatureHelp.nearest? focus.activeField s.fields.length) s.fields, rfl, ?_, ?_, ?_⟩
  · exact join_newline (by simp [lines])
  · rw [rows, List.length_mapIdx]
    exact (Signature.length_parametersFrom _ _).symm
  · intro n p row hp hRow
    rw [rows, List.getElem?_mapIdx, Option.map_eq_some_iff] at hRow
    obtain ⟨f, hf, rfl⟩ := hRow
    have hMark : ∀ active : Bool, (marker active).length = 2 ∧ '\n' ∉ marker active := by decide
    exact {
      no_newline := by
        rw [List.mem_append, not_or]
        exact ⟨(hMark _).2, hRows f (List.mem_of_getElem? hf)⟩
      label_prefix := by
        have hSlice : (Signature.ofStruct s).label.slice p.start p.stop = f.label :=
          Signature.slice_labelOf hp hf
        rw [List.drop_left' (hMark _).1, hSlice, Field.row, List.append_assoc]
        exact List.prefix_append _ _
      arrow_iff := by
        rw [arrow_prefix_marker_iff, decide_eq_true_iff]
        rfl }

/-! ## Reports for programs -/

/-- The report is an object with the help as its last member. Halves of pairs stand in it as their
escapes: it is put together of the object with the help and the object with its twin, which is the
same help with the other stand-ins. Help without halves is its own twin. -/
def Carries (help twin : SignatureHelp) (report : Text) : Prop :=
  ∃ members : List (Text × Json),
    let object (h : SignatureHelp) := Json.object (members ++ [Json.entry "signatureHelp" h.toJson])
    report = Json.restore (object help).toText (object twin).toText ++ ['\n']

theorem carries_json (document : Text) (s other : Struct) (focus : Focus) :
    Carries (SignatureHelp.ofStruct s focus.activeField)
      (SignatureHelp.ofStruct other focus.activeField)
      (Json.restore (json document s focus) (json document other focus) ++ ['\n']) :=
  ⟨[_], rfl⟩

end Report

/-! ## Structs that are shown -/

/-- Whatever a struct is read from, the row of each of its fields is one line. -/
theorem Struct.newline_not_mem_row {language description : Text}
    (h : ofText? language description = some s) (hf : f ∈ s.fields) : '\n' ∉ f.row := by
  rw [ofText?, Description.struct?] at h
  obtain ⟨found, -, rfl⟩ := Option.map_eq_some_iff.mp h
  exact Field.newline_not_mem_row hf

/-- So it is for a struct that a provider describes. -/
theorem Provider.newline_not_mem_row {provider : Provider} {language document : Text}
    {context : Cursor.Context} (h : provider.struct? language document context = some s)
    (hf : f ∈ s.fields) : '\n' ∉ f.row := by
  obtain ⟨description, -, hStruct⟩ := Option.bind_eq_some_iff.mp h
  exact Struct.newline_not_mem_row hStruct hf

end FieldHint
