import FieldHint.Declaration.Lookup
import FieldHint.Proofs.Description.Render
import FieldHint.Proofs.Text.Lines

/-!
# Declarations — the comment above

The comment lines right above a declaration document it, up to the first line that is none. The
documentation of a list of comment lines is their text without indents and marks, line by line.

* `Commented.commentAbove_eq` — the block of comment lines that a text ends with is found;
* `commentAbove_lines` — so are lines behind a blank line, or at the start of the document;
* `Comment.isProse_textOf` — their text can stand in front of a block if they hold no fence.
-/

namespace FieldHint

/-! ## Comment lines -/

namespace Comment

/-- A line that is a comment from its first character that is no blank. -/
structure IsLine (line : Text) : Prop where
  one_line : ∀ c ∈ line, Text.isBreak c = false
  opens : Comment.opens (Text.strip line) = true

/-- What a comment line says. -/
def said (line : Text) : Text := Text.strip ((Text.strip line).drop mark.length)

/-- What comment lines say, if they say anything. -/
def textOf (lines : List Text) : Option Text :=
  (Text.strip (Text.join ['\n'] (lines.map said))).nonempty?

variable {line : Text} {lines : List Text}

theorem IsLine.no_newline (h : IsLine line) : '\n' ∉ line := by
  intro hMem
  have := h.one_line '\n' hMem
  revert this
  decide

theorem said_isInfix (line : Text) : said line <:+: line :=
  Text.strip_isInfix.trans ((List.drop_suffix _ _).isInfix.trans Text.strip_isInfix)

theorem not_infix_join {mark : Text} {ts : List Text} (hNewline : '\n' ∉ mark) (hMark : mark ≠ [])
    (h : ∀ t ∈ ts, ¬ mark <:+: t) : ¬ mark <:+: Text.join ['\n'] ts := by
  induction ts with
  | nil =>
    rw [Text.join, List.intercalate_nil, List.infix_nil]
    exact hMark
  | cons t ts ih =>
    have ht : ¬ mark <:+: t := h t List.mem_cons_self
    have hTail := ih fun u hu => h u (List.mem_cons_of_mem _ hu)
    cases ts with
    | nil =>
      rw [Text.join, List.intercalate_singleton]
      exact ht
    | cons u ts =>
      rw [Text.join, List.intercalate_cons_cons, List.append_assoc, List.singleton_append,
        Text.infix_append_cons_iff hNewline, not_or]
      exact ⟨ht, hTail⟩

theorem isProse_textOf (h : ∀ line ∈ lines, ¬ Fence.mark <:+: line) :
    ∀ t ∈ textOf lines, IsProse t := by
  intro t ht
  obtain ⟨rfl, hne⟩ := Text.nonempty?_eq_some_iff.mp ht
  refine ⟨hne, Text.strip_strip, fun hFence => ?_⟩
  refine not_infix_join (by decide) (by decide) ?_ (hFence.trans Text.strip_isInfix)
  intro t ht
  obtain ⟨line, hLine, rfl⟩ := List.mem_map.mp ht
  exact fun hSaid => h line hLine (hSaid.trans (said_isInfix line))

end Comment

namespace Declaration

/-! ## Looking up from a declaration -/

/-- A list of lines that ends with comment lines, where the line before them is none. -/
theorem commentBlock_append {before lines : List Text}
    (hBefore : ∀ line ∈ before.getLast?, Comment.opens (Text.strip line) = false)
    (hLines : ∀ line ∈ lines, Comment.opens (Text.strip line) = true) :
    commentBlock (before ++ lines) = lines.map Comment.said := by
  -- the search goes from the last line up
  have hRun : ((before ++ lines).reverse.map Text.strip).takeWhile Comment.opens =
      (lines.map Text.strip).reverse := by
    rw [List.reverse_append, List.map_append, List.map_reverse]
    refine Text.takeWhile_run ?_ ?_
    · simpa using hLines
    · simpa using hBefore
  rw [commentBlock, hRun, List.reverse_reverse, List.map_map]
  rfl

/-- A text that is empty or ends in a blank line. -/
def EndsBlank (t : Text) : Prop :=
  t = [] ∨ ∃ before blank, t = before ++ blank ++ ['\n'] ∧
    Text.EndsLine before ∧ ∀ c ∈ blank, Text.isBlank c = true

theorem EndsBlank.endsLine {t : Text} (h : EndsBlank t) : Text.EndsLine t := by
  rcases h with rfl | ⟨before, blank, rfl, -⟩
  · exact Or.inl rfl
  · exact Or.inr List.getLast?_concat

/-- The last line of such a text is blank. -/
theorem EndsBlank.last_line {t : Text} (h : EndsBlank t) :
    ∀ line ∈ (Text.lines t).getLast?, Text.strip line = [] := by
  rcases h with rfl | ⟨before, blank, rfl, hBefore, hBlank⟩
  · simp [Text.lines]
  -- the last line is cut out of the blank one and its line feed
  intro line hLine
  rw [List.append_assoc, hBefore.lines_append,
    List.getLast?_append_of_ne_nil _ (Text.lines_ne_nil (by simp))] at hLine
  refine Text.strip_of_blank fun c hc => ?_
  have hMem := Text.mem_of_mem_lines (List.mem_of_getLast? hLine) hc
  rcases List.mem_append.mp hMem with hc | hc
  · exact hBlank c hc
  · rw [List.mem_singleton.mp hc]
    decide

/-- A text of whole lines that ends with a block of comment lines, which may be empty. -/
structure Commented (t : Text) (block : List Text) : Prop where
  endsLine : Text.EndsLine t
  comments : ∀ line ∈ block, Comment.opens (Text.strip line) = true
  lines_eq : ∃ before, Text.lines t = before ++ block ∧
    ∀ line ∈ before.getLast?, Comment.opens (Text.strip line) = false

theorem EndsBlank.commented {t : Text} (h : EndsBlank t) : Commented t [] := by
  refine ⟨h.endsLine, by simp, Text.lines t, by simp, fun line hLine => ?_⟩
  rw [h.last_line line hLine]
  rfl

namespace Commented

variable {t u line : Text} {block : List Text}

/-- The block goes on with another comment line. -/
theorem append_comment (h : Commented t block) (hLine : Comment.IsLine line) :
    Commented (t ++ (line ++ ['\n'])) (block ++ [line]) := by
  obtain ⟨before, hLines, hBefore⟩ := h.lines_eq
  have hOwn : Text.lines (line ++ ['\n']) = [line] := Text.lines_of_line hLine.one_line []
  refine ⟨h.endsLine.append (Or.inr List.getLast?_concat), ?_, before, ?_, hBefore⟩
  · intro other hMem
    rcases List.mem_append.mp hMem with hMem | hMem
    · exact h.comments other hMem
    · rw [List.mem_singleton.mp hMem]
      exact hLine.opens
  · rw [h.endsLine.lines_append, hLines, hOwn, List.append_assoc]

/-- Behind other lines, of which the last one is no comment, a new block starts. -/
theorem append_other (ht : Text.EndsLine t) (hu : u.getLast? = some '\n')
    (hLast : ∀ line ∈ (Text.lines u).getLast?, Comment.opens (Text.strip line) = false) :
    Commented (t ++ u) [] := by
  have hne : Text.lines u ≠ [] := Text.lines_ne_nil (by rintro rfl; simp at hu)
  refine ⟨ht.append (Or.inr hu), by simp, Text.lines t ++ Text.lines u, ?_, ?_⟩
  · rw [ht.lines_append, List.append_nil]
  · rwa [List.getLast?_append_of_ne_nil _ hne]

/-- The block is what is found above the end of the text, whatever follows. -/
theorem commentAbove_eq (h : Commented t block) (rest : Text) :
    commentAbove (t ++ rest) t.length = Comment.textOf block := by
  obtain ⟨before, hLines, hBefore⟩ := h.lines_eq
  rw [commentAbove, List.take_left, hLines, commentBlock_append hBefore h.comments, Comment.textOf]

end Commented

/-- Comment lines above an offset are found, whatever follows. -/
theorem commentAbove_lines {t rest : Text} {lines : List Text} (ht : EndsBlank t)
    (hLines : ∀ line ∈ lines, Comment.IsLine line) :
    commentAbove (t ++ lines.flatMap (· ++ ['\n']) ++ rest)
        (t ++ lines.flatMap (· ++ ['\n'])).length = Comment.textOf lines := by
  -- the block above the lines grows by each of them
  have hBlock : ∀ {u : Text} {block : List Text}, Commented u block →
      Commented (u ++ lines.flatMap (· ++ ['\n'])) (block ++ lines) := by
    induction lines with
    | nil =>
      intro u block h
      simpa using h
    | cons line lines ih =>
      intro u block h
      have hNext := h.append_comment (hLines line List.mem_cons_self)
      have hAll := ih (fun l hl => hLines l (List.mem_cons_of_mem _ hl)) hNext
      simpa using hAll
  exact (hBlock ht.commented).commentAbove_eq rest

end Declaration

end FieldHint
