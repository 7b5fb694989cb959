import FieldHint.Proofs.Body.OneLine
import FieldHint.Proofs.Body.Split

/-!
# Struct bodies — nothing is lost

Splitting drops separators and blanks, and folding puts separators in between. All else is kept: the
pieces of a body hold its other characters, each once and in order.

* `kept_flatten_chunks` — the split drops nothing but the separators, on which it splits;
* `kept_tidy` — a piece that is tidied up only gains or loses blanks and semicolons;
* `kept_pieces` — so the pieces hold what the body holds, and each of them is a piece of one line
  without blanks around it.

A comment on a line that is folded is dropped, so the last two are about text without comments.
-/

namespace FieldHint

namespace Body

variable {s : Scan} {t body piece line : Text} {lines : List Text} {c : Char}

/-! ## What is kept -/

/-- A text without its blanks and semicolons. -/
def kept (t : Text) : Text := t.filter fun c => !Text.isBlank c && c ≠ ';'

@[simp] theorem kept_append (t u : Text) : kept (t ++ u) = kept t ++ kept u :=
  List.filter_append ..

theorem kept_cons (c : Char) (t : Text) : kept (c :: t) = kept [c] ++ kept t :=
  kept_append [c] t

theorem kept_of_blank (ht : ∀ c ∈ t, Text.isBlank c = true) : kept t = [] := by
  rw [kept, List.filter_eq_nil_iff]
  intro c hc
  simp [ht c hc]

theorem kept_strip (t : Text) : kept (Text.strip t) = kept t := by
  obtain ⟨a, b, hSplit, ha, hb⟩ := Text.exists_strip t
  rw [congrArg kept hSplit, kept_append, kept_append, kept_of_blank ha, kept_of_blank hb,
    List.nil_append, List.append_nil]

theorem kept_flatten_map {f : Text → Text} {ts : List Text}
    (h : ∀ t ∈ ts, kept (f t) = kept t) : kept (ts.map f).flatten = kept ts.flatten := by
  induction ts with
  | nil => rfl
  | cons t ts ih =>
    rw [List.forall_mem_cons] at h
    rw [List.map_cons, List.flatten_cons, List.flatten_cons, kept_append, kept_append, h.1, ih h.2]

theorem kept_flatten_lines (t : Text) : kept (Text.lines t).flatten = kept t := by
  induction t using Text.lines.induct with
  | case1 => rfl
  | case2 t ih =>
    rw [Text.lines, List.flatten_cons, List.nil_append, ih]
    rfl
  | case3 c t hNot hBreak ih =>
    have hBlank : ∀ d ∈ [c], Text.isBlank d = true :=
      List.forall_mem_singleton.mpr (Text.isBlank_of_isBreak hBreak)
    rw [Text.lines, if_pos hBreak, List.flatten_cons, List.nil_append, ih, kept_cons,
      kept_of_blank hBlank, List.nil_append]
    exact hNot
  | case4 c t hNot hBreak ih =>
    rw [Text.lines, if_neg hBreak, Text.flatten_consHead, kept_cons, ih, ← kept_cons]
    exact hNot

/-! ## Splitting -/

theorem kept_separator (hc : s.splitsAt c = true) : kept [c] = [] := by
  simp only [Scan.splitsAt, Bool.and_eq_true, Bool.or_eq_true, decide_eq_true_eq] at hc
  rcases hc with ⟨-, rfl | ⟨rfl, -⟩⟩ <;> decide

/-- The split drops nothing but separators. -/
theorem kept_flatten_chunks (s : Scan) (t : Text) : kept (s.chunks t).flatten = kept t := by
  induction t generalizing s with
  | nil => rfl
  | cons c t ih =>
    rw [Scan.chunks]
    split
    · next hc =>
      rw [List.flatten_cons, List.nil_append, ih, kept_cons, kept_separator hc, List.nil_append]
    · rw [Text.flatten_consHead, kept_cons, ih, ← kept_cons]

theorem Scan.cutFrom_chunks (s : Scan) (t : Text) : Text.CutFrom (s.chunks t) t := by
  induction t generalizing s with
  | nil => exact ⟨by simp [chunks], by simp [chunks]⟩
  | cons c t ih =>
    rw [chunks]
    split
    · exact (ih (s.step c)).nil_cons (List.suffix_cons c t)
    · exact (ih (s.step c)).consHead c

/-! ## Folding -/

theorem kept_seam (above below : Text) : kept (seam above below) = [] := by
  rw [seam]
  split <;> decide

theorem kept_joinLines (ls : List Text) : kept (joinLines ls) = kept ls.flatten := by
  induction ls using joinLines.induct with
  | case1 => rfl
  | case2 l => simp [joinLines]
  | case3 above below rest ih =>
    rw [joinLines, kept_append, kept_append, kept_seam, ih, List.append_nil, ← kept_append]
    rfl

/-- Without comments, all of the lines is kept. -/
theorem kept_flatten_foldedLines (h : ∀ l ∈ lines, ¬ Comment.mark <:+: l) :
    kept (foldedLines lines).flatten = kept lines.flatten := by
  induction lines using foldedLines.induct with
  | case1 => rfl
  | case2 last => simp [foldedLines, kept_strip]
  | case3 l rest hRest ih =>
    rw [List.forall_mem_cons] at h
    rw [foldedLines, List.flatten_cons, List.flatten_cons, kept_append, kept_append, kept_strip,
      Comment.cut, Text.before_of_not_infix h.1, ih h.2]
    exact hRest

theorem kept_fold (h : ¬ Comment.mark <:+: piece) : kept (fold piece) = kept piece := by
  have hLines : ∀ l ∈ Text.lines piece, ¬ Comment.mark <:+: l :=
    fun l hl hMark => h (hMark.trans ((Text.cutFrom_lines piece).isInfix l hl))
  rw [fold, kept_joinLines, List.flatten_filter_not_isEmpty, kept_flatten_foldedLines hLines,
    kept_flatten_lines]

theorem kept_tidy (h : ¬ Comment.mark <:+: piece) : kept (tidy piece) = kept piece := by
  rw [tidy]
  split
  · exact kept_fold h
  · exact kept_strip piece

/-! ## Blanks around a piece -/

theorem strip_of_mem_foldedLines (hl : line ∈ foldedLines lines) : Text.strip line = line := by
  induction lines using foldedLines.induct with
  | case1 => simp [foldedLines] at hl
  | case2 last =>
    rw [foldedLines, List.mem_singleton] at hl
    rw [hl, Text.strip_strip]
  | case3 l rest hRest ih =>
    rw [foldedLines] at hl
    · rcases List.mem_cons.mp hl with rfl | hl
      · exact Text.strip_strip
      · exact ih hl
    · exact hRest

theorem joinLines_ne_nil (hne : lines ≠ []) (h : ∀ l ∈ lines, l ≠ []) : joinLines lines ≠ [] := by
  cases lines using joinLines.fun_cases with
  | case1 => exact absurd rfl hne
  | case2 l => exact h l List.mem_cons_self
  | case3 above below rest => simp [joinLines, h above List.mem_cons_self]

/-- Stripped lines are joined to a stripped one. -/
theorem strip_joinLines (h : ∀ l ∈ lines, l ≠ [] ∧ Text.strip l = l) :
    Text.strip (joinLines lines) = joinLines lines := by
  induction lines using joinLines.induct with
  | case1 => rfl
  | case2 l => exact (h l List.mem_cons_self).2
  | case3 above below rest ih =>
    rw [List.forall_mem_cons] at h
    have hRest : joinLines (below :: rest) ≠ [] :=
      joinLines_ne_nil (List.cons_ne_nil below rest) fun l hl => (h.2 l hl).1
    exact Text.strip_append_append h.1.1 hRest h.1.2 (ih h.2) _

theorem strip_tidy (piece : Text) : Text.strip (tidy piece) = tidy piece := by
  rw [tidy]
  split
  · refine strip_joinLines fun l hl => ?_
    obtain ⟨hMem, hNonempty⟩ := List.mem_filter.mp hl
    exact ⟨by simpa using hNonempty, strip_of_mem_foldedLines hMem⟩
  · exact Text.strip_strip

/-! ## Pieces -/

theorem mem_pieces (h : piece ∈ pieces body) :
    piece ≠ [] ∧ Text.strip piece = piece ∧ '\n' ∉ piece := by
  obtain ⟨hMem, hNonempty⟩ := List.mem_filter.mp h
  obtain ⟨chunk, -, rfl⟩ := List.mem_map.mp hMem
  exact ⟨by simpa using hNonempty, strip_tidy chunk, newline_not_mem_tidy chunk⟩

/-- Splitting a body loses no text and invents none. Every piece is one line that is not empty and
has no blanks around it; and if no comment stands in the body, the pieces hold, up to blanks and
semicolons, the same text as the body. -/
theorem kept_pieces (body : Text) :
    (∀ piece ∈ pieces body, piece ≠ [] ∧ Text.strip piece = piece ∧ '\n' ∉ piece) ∧
      (¬ Comment.mark <:+: body → kept (pieces body).flatten = kept body) := by
  refine ⟨fun piece => mem_pieces, fun hMark => ?_⟩
  have hChunks : ∀ chunk ∈ Scan.chunks {} body, kept (tidy chunk) = kept chunk :=
    fun chunk hChunk => kept_tidy fun hInside =>
      hMark (hInside.trans ((Scan.cutFrom_chunks {} body).isInfix chunk hChunk))
  rw [pieces, List.flatten_filter_not_isEmpty, kept_flatten_map hChunks, kept_flatten_chunks]

/-- A body with a folded piece, a brace that is closed unopened, and a slash of its own. -/
def foldedBody : Text :=
  ['a', ' ', 's', '{', '\n', ' ', 'b', '\u2028', 'c', ';', '}', '\n', '}', ';', ' ', '/', 'd']

/-- The theorem at that body, whose first piece gets a semicolon between two of its lines. -/
theorem kept_pieces_folded :
    ['a', ' ', 's', '{', ' ', 'b', ';', ' ', 'c', ';', '}'] ∈ pieces foldedBody ∧
      Text.strip ['a', ' ', 's', '{', ' ', 'b', ';', ' ', 'c', ';', '}'] =
        ['a', ' ', 's', '{', ' ', 'b', ';', ' ', 'c', ';', '}'] ∧
      ¬ Comment.mark <:+: foldedBody ∧ kept (pieces foldedBody).flatten = kept foldedBody := by
  have hMem : ['a', ' ', 's', '{', ' ', 'b', ';', ' ', 'c', ';', '}'] ∈ pieces foldedBody := by
    decide
  have hMark : ¬ Comment.mark <:+: foldedBody := by decide
  obtain ⟨hPieces, hKept⟩ := kept_pieces foldedBody
  exact ⟨hMem, (hPieces _ hMem).2.1, hMark, hKept hMark⟩

end Body

end FieldHint
