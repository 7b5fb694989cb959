import FieldHint.Proofs.Body.Spacing
import FieldHint.Proofs.Brace.Span

/-!
# Struct bodies — fields as lines

`Field.line` writes a field as one line of a struct body: a row with single spaces. Of the fields
that are `Field.WellFormed` the line is a faithful account.

* `Row.ofLine_line` — the line is read as the field;
* `Field.ofBody_lines` — lines that follow each other are read as the fields, in order;
* `Field.isBody_lines` — the brace that closes such lines is the one behind them, whatever their
  tags and comments hold.
-/

namespace FieldHint

namespace Field

/-! ## Lines of fields -/

/-- A tag behind a type. -/
def tagText : Option Text → Text
  | none => []
  | some tag => ' ' :: ('\x60' :: tag ++ ['\x60'])

/-- A comment at the end of a line. -/
def docText : Option Text → Text
  | none => []
  | some doc => ' ' :: '/' :: '/' :: ' ' :: doc

/-- The field as one line of a struct body. An empty tag is written, too. -/
def line (f : Field) : Text := f.name ++ (' ' :: (f.typeExpr ++ (tagText f.tag ++ docText f.doc)))

/-- The lines of several fields, each with its line feed. -/
def lines (fields : List Field) : Text := fields.flatMap fun f => f.line ++ ['\n']

variable {f : Field} {fields : List Field}

/-- A line is a row with single spaces. -/
theorem line_eq_spaced (f : Field) : f.line = f.spaced {} := by
  have hTag : tagText f.tag = Spacing.tagText {} f.tag := by
    cases f.tag <;> rfl
  have hDoc : docText f.doc = Spacing.docText {} f.doc := by
    cases f.doc <;> rfl
  simp [line, spaced, Spacing.row, Spacing.trailer, hTag, hDoc]

namespace WellFormed

theorem no_newline (h : f.WellFormed) : '\n' ∉ f.line := by
  rw [line_eq_spaced]
  exact h.no_newline_spaced Spacing.wellFormed_single

theorem tidy_line (h : f.WellFormed) : Body.tidy f.line = f.line := by
  rw [line_eq_spaced, h.tidy_spaced Spacing.wellFormed_single]
  simp [spaced, Spacing.row]

/-- The splitter reads a line as one piece. -/
theorem passes_line (h : f.WellFormed) :
    ∃ m, Body.Scan.Passes ⟨.code, 0⟩ f.line ⟨m, 0⟩ := by
  obtain ⟨m, hPasses, -⟩ := h.passes_spaced Spacing.wellFormed_single le_rfl
  rw [line_eq_spaced]
  exact ⟨m, hPasses⟩

end WellFormed

end Field

/-- The line of a field is read as that field. -/
theorem Row.ofLine_line {f : Field} (h : f.WellFormed) : Row.ofLine f.line = .field f := by
  have hRead := h.ofLine_tidy_spaced Spacing.wellFormed_single (Spacing.apart_single _ _ _)
  rwa [← Field.line_eq_spaced, h.tidy_line] at hRead

/-! ## Splitting lines -/

namespace Field

variable {f : Field} {fields : List Field}

theorem chunks_lines (h : ∀ f ∈ fields, f.WellFormed) :
    Body.Scan.chunks {} (lines fields) = fields.map line ++ [[]] := by
  induction fields with
  | nil => rfl
  | cons f fields ih =>
    -- whatever the line ends in, its line feed leads back to the start
    obtain ⟨m, hPasses⟩ := (h f List.mem_cons_self).passes_line
    have hTail := ih fun g hg => h g (List.mem_cons_of_mem _ hg)
    rw [lines, List.flatMap_cons, List.append_assoc, List.singleton_append,
      Body.Scan.chunks_append_of_split hPasses (Body.Scan.splitsAt_newline le_rfl),
      Body.Scan.step_newline]
    rw [lines] at hTail
    rw [hTail]
    rfl

/-- Lines that follow each other are the pieces of a body, and nothing else is. -/
theorem pieces_lines (h : ∀ f ∈ fields, f.WellFormed) :
    Body.pieces ('\n' :: lines fields) = fields.map line := by
  -- a line is stripped and whole: nothing is folded, and none is empty
  have hTidy : (fields.map line).map Body.tidy = fields.map line := by
    rw [List.map_map]
    refine List.map_congr_left fun f hf => ?_
    exact (h f hf).tidy_line
  have hKept : (fields.map line).filter (fun piece => !piece.isEmpty) = fields.map line := by
    rw [List.filter_eq_self]
    intro t ht
    obtain ⟨f, -, rfl⟩ := List.mem_map.mp ht
    simp [line]
  -- the line feeds at both ends leave an empty chunk each
  have hChunks : Body.Scan.chunks {} ('\n' :: lines fields) = [] :: (fields.map line ++ [[]]) := by
    rw [Body.Scan.chunks, if_pos (Body.Scan.splitsAt_newline le_rfl), Body.Scan.step_newline,
      chunks_lines h]
  rw [Body.pieces, hChunks, List.map_cons, List.map_append, hTidy, List.filter_cons,
    List.filter_append, hKept]
  simp [Body.tidy, Text.strip_of_blank]

/-- Lines that follow each other are read as their fields, in order. -/
theorem ofBody_lines (h : ∀ f ∈ fields, f.WellFormed) :
    ofBody ('\n' :: lines fields) = fields := by
  rw [ofBody, Row.ofBody, pieces_lines h, List.map_map, List.filterMap_map]
  have hRead : ∀ f ∈ fields, (Row.toField? ∘ Row.ofLine ∘ line) f = some f := by
    intro f hf
    simp [Row.ofLine_line (h f hf), Row.toField?]
  rw [List.filterMap_congr hRead, List.filterMap_some]

/-! ## Closing braces -/

/-- The search for a closing brace passes a line with the line feed that ends it. -/
theorem WellFormed.passes_brace (h : f.WellFormed) (hQuote : '"' ∉ f.typeExpr) {d : Int}
    (hd : 0 < d) : Brace.Scan.Passes ⟨.code, d⟩ (f.line ++ ['\n']) ⟨.code, d⟩ := by
  have hCode := Text.isCode_endMode (M := Brace.Mode)
  have hBareName : Brace.Scan.Bare f.name :=
    ⟨h.name.not_mem (by decide), h.name.not_mem (by decide),
      Text.not_infix_of_not_mem (x := '/') (by decide) (h.name.not_mem (by decide))⟩
  have hBalancedName : Brace.Balanced f.name :=
    .of_not_mem (h.name.not_mem (by decide)) (h.name.not_mem (by decide))
  have hBareType : Brace.Scan.Bare f.typeExpr :=
    ⟨hQuote, h.bare_type.no_backtick, h.bare_type.no_comment⟩
  have hName := Brace.Scan.passes_bare hBareName hBalancedName hd
  have hType := Brace.Scan.passes_bare hBareType h.balanced_type hd
  have hSpace : ∀ {m}, m.isCode = true → Brace.Scan.Passes ⟨m, d⟩ [' '] ⟨.code, d⟩ :=
    fun hm => Brace.Scan.passes_blank hm (by decide)
  have hTag : ∃ m, m.isCode = true ∧
      Brace.Scan.Passes ⟨Text.endMode f.typeExpr, d⟩ (tagText f.tag) ⟨m, d⟩ := by
    cases hTag : f.tag with
    | none => exact ⟨_, hCode _, .nil⟩
    | some tag =>
      exact ⟨_, rfl, (hSpace (hCode _)).append (Brace.Scan.passes_raw_string (h.tag tag hTag))⟩
  obtain ⟨m, hm, hTag⟩ := hTag
  have hDoc : Brace.Scan.Passes ⟨m, d⟩ (docText f.doc ++ ['\n']) ⟨.code, d⟩ := by
    cases hDoc : f.doc with
    | none => exact Brace.Scan.passes_blank hm (by decide)
    | some doc =>
      have hNewline : '\n' ∉ ' ' :: doc := by simpa using h.doc_line doc hDoc
      exact (hSpace hm).append (Brace.Scan.passes_line_comment hNewline)
  -- a comment is only passed together with the line feed that ends it
  have hSplit : f.line ++ ['\n'] =
      f.name ++ ([' '] ++ (f.typeExpr ++ (tagText f.tag ++ (docText f.doc ++ ['\n'])))) := by
    simp [line]
  rw [hSplit]
  exact hName.append ((hSpace (hCode _)).append (hType.append (hTag.append hDoc)))

/-- Lines of fields are a struct body: the brace that closes it is the one behind them. -/
theorem isBody_lines (h : ∀ f ∈ fields, f.WellFormed) (hQuote : ∀ f ∈ fields, '"' ∉ f.typeExpr) :
    Brace.IsBody ('\n' :: lines fields) := by
  have hLines : Brace.Scan.Passes ⟨.code, 1⟩ ('\n' :: lines fields) ⟨.code, 1⟩ :=
    (Brace.Scan.passes_blank (c := '\n') rfl (by decide)).append
      (.flatMap fun f hf => (h f hf).passes_brace (hQuote f hf) one_pos)
  rw [Brace.isBody_iff, hLines.run_eq]
  exact ⟨hLines.unclosed, rfl⟩

end Field

end FieldHint
