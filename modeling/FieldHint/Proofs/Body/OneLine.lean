import FieldHint.Proofs.Body.Declares
import FieldHint.Proofs.Text.Lines

/-!
# Struct bodies — everything fits on a line

A field is shown on a row of its own, so nothing in it may break the row. Pieces of several lines
are folded, and the parts of a field are cut out of a piece:

* `Body.newline_not_mem_of_mem_pieces` — a piece is one line;
* `Row.Declares.standsIn` — the parts of a field stand in the line that declares it;
* `Field.newline_not_mem_row` — so the row of a field of a body is one line, too.
-/

namespace FieldHint

/-! ## Pieces -/

namespace Body

variable {body piece line : Text} {lines : List Text}

theorem newline_not_mem_of_mem_foldedLines (h : ∀ l ∈ lines, '\n' ∉ l)
    (hl : line ∈ foldedLines lines) : '\n' ∉ line := by
  induction lines using foldedLines.induct with
  | case1 => simp [foldedLines] at hl
  | case2 last =>
    rw [foldedLines, List.mem_singleton] at hl
    subst hl
    exact fun hc => h last List.mem_cons_self (Text.strip_isInfix.subset hc)
  | case3 l rest hRest ih =>
    rw [List.forall_mem_cons] at h
    rw [foldedLines] at hl
    · rcases List.mem_cons.mp hl with rfl | hl
      · exact fun hc => h.1 ((Text.before_isPrefix _ _).subset (Text.strip_isInfix.subset hc))
      · exact ih h.2 hl
    · exact hRest

theorem newline_not_mem_joinLines (h : ∀ l ∈ lines, '\n' ∉ l) : '\n' ∉ joinLines lines := by
  induction lines using joinLines.induct with
  | case1 => simp [joinLines]
  | case2 l => exact h l List.mem_cons_self
  | case3 above below rest ih =>
    rw [List.forall_mem_cons] at h
    have hSeam : '\n' ∉ seam above below := by
      rw [seam]
      split <;> decide
    rw [joinLines, List.mem_append, List.mem_append]
    rintro ((hc | hc) | hc)
    · exact h.1 hc
    · exact hSeam hc
    · exact ih h.2 hc

/-- A piece that is tidied up is one line. -/
theorem newline_not_mem_tidy (piece : Text) : '\n' ∉ tidy piece := by
  rw [tidy]
  split
  · refine newline_not_mem_joinLines fun l hl => ?_
    exact newline_not_mem_of_mem_foldedLines (fun m hm => Text.newline_not_mem_of_mem_lines hm)
      (List.mem_of_mem_filter hl)
  · next h => exact h

theorem newline_not_mem_of_mem_pieces (h : piece ∈ pieces body) : '\n' ∉ piece := by
  obtain ⟨chunk, -, rfl⟩ := List.mem_map.mp (List.mem_of_mem_filter h)
  exact newline_not_mem_tidy chunk

end Body

/-! ## Fields -/

/-- Each part of a field stands somewhere in a line. -/
structure Field.StandsIn (f : Field) (line : Text) : Prop where
  name : f.name <:+: line
  typeExpr : f.typeExpr <:+: line
  tag : ∀ t ∈ f.tag, t <:+: line
  doc : ∀ t ∈ f.doc, t <:+: line

namespace Row

variable {line tail : Text} {f : Field} {tag doc : Option Text}

theorem IsTrailer.isInfix (h : IsTrailer tag doc tail) :
    (∀ t ∈ tag, t <:+: tail) ∧ ∀ t ∈ doc, t <:+: tail := by
  have hSaid : ∀ (before said t : Text), t ∈ (Text.strip said).nonempty? →
      t <:+: before ++ said := by
    intro before said t ht
    obtain ⟨rfl, -⟩ := Text.nonempty?_eq_some_iff.mp ht
    exact Text.strip_isInfix.trans (List.suffix_append before said).isInfix
  cases h with
  | nothing => simp
  | comment said => exact ⟨by simp, hSaid ['/', '/'] said⟩
  | @tag tag gap _ _ => exact ⟨by simpa using ⟨['\x60'], '\x60' :: gap, by simp⟩, by simp⟩
  | @tagComment tag gap said _ _ =>
    refine ⟨by simpa using ⟨['\x60'], '\x60' :: (gap ++ '/' :: '/' :: said), by simp⟩, ?_⟩
    have hDoc := hSaid ('\x60' :: (tag ++ '\x60' :: (gap ++ ['/', '/']))) said
    simpa using hDoc

/-- The parts of a field are cut out of the line that declares it. -/
theorem Declares.standsIn (h : Declares line f) : f.StandsIn line := by
  obtain ⟨-, -, -, -, -, hTrailer⟩ := h
  next name gap typeText tail tag doc =>
  obtain ⟨hTag, hDoc⟩ := hTrailer.isInfix
  have hTail : tail <:+: name ++ (gap ++ (typeText ++ tail)) :=
    ⟨name ++ (gap ++ typeText), [], by simp⟩
  exact {
    name := (List.prefix_append _ _).isInfix
    typeExpr := Text.strip_isInfix.trans ⟨name ++ gap, tail, by simp⟩
    tag := fun t ht => (hTag t ht).trans hTail
    doc := fun t ht => (hDoc t ht).trans hTail }

theorem field?_of_ofLine (h : (ofLine line).toField? = some f) : field? line = some f := by
  unfold ofLine at h
  split at h
  · simp [toField?] at h
  · split at h
    · next hField => rwa [hField]
    · simp [toField?] at h

end Row

namespace Field

variable {line body : Text} {f : Field}

/-- A part that is shown is one that the field has. -/
theorem mem_of_bind_nonempty? {part : Option Text} {t : Text}
    (h : part.bind Text.nonempty? = some t) : t ∈ part := by
  obtain ⟨u, hu, hNonempty⟩ := Option.bind_eq_some_iff.mp h
  obtain ⟨rfl, -⟩ := Text.nonempty?_eq_some_iff.mp hNonempty
  exact hu

/-- A row adds spaces and marks to the parts of its field, but no line feed. -/
theorem StandsIn.newline_not_mem_row (h : f.StandsIn line) (hLine : '\n' ∉ line) :
    '\n' ∉ f.row := by
  have hPart : ∀ {t : Text}, t <:+: line → '\n' ∉ t := fun ht hc => hLine (ht.subset hc)
  have hLabel : '\n' ∉ f.label := by
    simp [label, hPart h.name, hPart h.typeExpr]
  simp only [row, List.mem_append, not_or]
  refine ⟨⟨hLabel, ?_⟩, ?_⟩
  · split
    · next tag hBind => simpa using hPart (h.tag tag (mem_of_bind_nonempty? hBind))
    · simp
  · split
    · next doc hBind => simpa using hPart (h.doc doc (mem_of_bind_nonempty? hBind))
    · simp

/-- The row of each field of a body is one line. -/
theorem newline_not_mem_row (h : f ∈ ofBody body) : '\n' ∉ f.row := by
  obtain ⟨row, hRow, hField⟩ := List.mem_filterMap.mp h
  obtain ⟨piece, hPiece, rfl⟩ := List.mem_map.mp hRow
  exact (Row.declares_of_field? (Row.field?_of_ofLine hField)).standsIn.newline_not_mem_row
    (Body.newline_not_mem_of_mem_pieces hPiece)

end Field

end FieldHint
