import FieldHint.Body.Row
import FieldHint.Proofs.Body.Split

/-!
# Struct bodies — read part by part

Four things are carried along a body: the depth, whether a tag or a comment is open, and where the
piece starts. A separator at depth zero sets all of them back, so what stands behind it is read as
if it stood alone:

* `pieces_append` — the pieces of a body are those of its two parts;
* `Field.ofBody_append_newline` — a line feed separates at depth zero whatever tag or comment is
  open, so a line that breaks off does no harm to the next one.
-/

namespace FieldHint

namespace Body

variable {s : Scan} {a b : Text} {c : Char}

/-- Behind a separator, the scan stands in code. -/
theorem Scan.step_of_splitsAt (hc : s.splitsAt c = true) : s.step c = ⟨.code, s.depth⟩ := by
  obtain ⟨m, d⟩ := s
  simp only [splitsAt, Bool.and_eq_true, Bool.or_eq_true, decide_eq_true_eq] at hc
  rcases hc.2 with rfl | ⟨rfl, hCode⟩
  · exact step_newline m d
  · -- a semicolon only separates in code, where it opens nothing
    cases m <;> simp_all [step, weight, Mode.next, Mode.entered, Mode.isCode]

/-- A separator at depth zero parts a body: both parts have the pieces that they have alone. -/
theorem pieces_append (hc : (Scan.run {} a).splitsAt c = true) (hDepth : depthAfter a = 0) :
    pieces (a ++ c :: b) = pieces a ++ pieces b := by
  have hFresh : (Scan.run {} a).step c = {} := by
    rw [Scan.step_of_splitsAt hc]
    exact congrArg (Scan.mk .code) hDepth
  rw [pieces, Scan.chunks_append_separator hc, hFresh, List.map_append, List.filter_append]
  rfl

end Body

variable {a b : Text} {c : Char}

theorem Row.ofBody_append (hc : (Body.Scan.run {} a).splitsAt c = true)
    (hDepth : Body.depthAfter a = 0) :
    ofBody (a ++ c :: b) = ofBody a ++ ofBody b := by
  rw [ofBody, Body.pieces_append hc hDepth, List.map_append]
  rfl

theorem Field.ofBody_append (hc : (Body.Scan.run {} a).splitsAt c = true)
    (hDepth : Body.depthAfter a = 0) :
    ofBody (a ++ c :: b) = ofBody a ++ ofBody b := by
  rw [ofBody, Row.ofBody_append hc hDepth, List.filterMap_append]
  rfl

/-- A text that is read in one piece yields one field or none. -/
theorem Field.ofBody_of_passes {s : Body.Scan} (ha : Body.Scan.Passes {} a s) :
    ofBody a = (Row.ofLine (Body.tidy a)).toField?.toList := by
  rw [ofBody, Row.ofBody, Body.pieces, ha.chunks_eq, List.map_singleton]
  by_cases hEmpty : Body.tidy a = []
  · -- an empty piece is dropped, and it would not be a field
    rw [hEmpty]
    rfl
  · rw [List.filter_cons_of_pos (by simpa using hEmpty)]
    cases hRow : (Row.ofLine (Body.tidy a)).toField? <;> simp [hRow]

/-- So it does in front of a separator, and the text behind that is read on its own. -/
theorem Field.ofBody_append_of_passes {m : Body.Mode} (ha : Body.Scan.Passes {} a ⟨m, 0⟩)
    (hc : c = '\n' ∨ c = ';' ∧ m.isCode = true) (b : Text) :
    ofBody (a ++ c :: b) = (Row.ofLine (Body.tidy a)).toField?.toList ++ ofBody b := by
  have hSplit : (Body.Scan.run {} a).splitsAt c = true := by
    rw [ha.run_eq]
    rcases hc with rfl | ⟨rfl, hm⟩
    · exact Body.Scan.splitsAt_newline le_rfl
    · simp [Body.Scan.splitsAt, hm]
  have hDepth : Body.depthAfter a = 0 := by
    rw [Body.depthAfter, ha.run_eq]
  rw [ofBody_append hSplit hDepth, ofBody_of_passes ha]

/-- Damage stays on its own line: where no brace is open, a line feed parts a body, even if the
text before it ends inside a tag or a comment. -/
theorem Field.ofBody_append_newline (hDepth : Body.depthAfter a = 0) (b : Text) :
    Body.pieces (a ++ '\n' :: b) = Body.pieces a ++ Body.pieces b ∧
      Row.ofBody (a ++ '\n' :: b) = Row.ofBody a ++ Row.ofBody b ∧
      ofBody (a ++ '\n' :: b) = ofBody a ++ ofBody b := by
  have hc : (Body.Scan.run {} a).splitsAt '\n' = true := by
    show Body.Scan.splitsAt ⟨(Body.Scan.run {} a).mode, Body.depthAfter a⟩ '\n' = true
    exact Body.Scan.splitsAt_newline hDepth.le
  exact ⟨Body.pieces_append hc hDepth, Row.ofBody_append hc hDepth, ofBody_append hc hDepth⟩

/-- The theorem at a tag that is never closed, with a brace in it, and a line that is sound. -/
theorem Field.ofBody_append_newline_unclosed :
    Body.depthAfter ['p', ' ', 'T', ' ', '\x60', '{'] = 0 ∧
      ofBody (['p', ' ', 'T', ' ', '\x60', '{'] ++ '\n' :: ['q', ' ', 'U']) =
        [⟨['q'], ['U'], none, none⟩] := by
  have hDepth : Body.depthAfter ['p', ' ', 'T', ' ', '\x60', '{'] = 0 := by decide
  refine ⟨hDepth, ?_⟩
  rw [(ofBody_append_newline hDepth ['q', ' ', 'U']).2.2]
  decide

end FieldHint
