import FieldHint.Proofs.Body.Spacing
import FieldHint.Proofs.Text.Lines

/-!
# Struct bodies — folding a piece

A field whose type is written over several lines makes a piece of several lines, which is folded
onto one. The lines lose their comments, so a line whose code holds no tag loses all marks of tags
and comments, and the folded type is free of them; what stands behind it on the last line is kept.

* `Scan.Glides` — a text that the splitter reads in one piece, without coming upon a tag;
* `Scan.unmarked_cut` — the code of a line in such a text holds no mark;
* `exists_fold` — such a piece is folded to its first words, an unmarked text, and the trailer.
-/

namespace FieldHint.Body

/-! ## Text without tags -/

namespace Scan

variable {s s' s'' : Scan} {t u l : Text} {c : Char} {d : Int} {m : Mode}

/-- The scan comes upon no tag in the text. -/
def Tagless (s : Scan) (t : Text) : Prop := ∀ p, p <+: t → (s.run p).mode ≠ .tag

theorem Tagless.append (ht : s.Tagless t) (hu : (s.run t).Tagless u) : s.Tagless (t ++ u) := by
  intro p hp
  -- a prefix ends in the first text, or takes all of it and goes on in the second
  rcases Text.prefix_append_cases hp with hp | ⟨r, rfl, hr⟩
  · exact ht p hp
  · rw [run_append]
    exact hu r hr

theorem Tagless.of_append (h : s.Tagless (t ++ u)) : (s.run t).Tagless u := by
  intro p hp
  rw [← run_append]
  exact h (t ++ p) ((List.prefix_append_right_inj t).mpr hp)

theorem Tagless.of_prefix (h : s.Tagless t) (hu : u <+: t) : s.Tagless u :=
  fun p hp => h p (hp.trans hu)

/-- Only a backtick opens a tag. -/
theorem tagless_of_no_backtick (hs : s.mode ≠ .tag) (ht : '\x60' ∉ t) : s.Tagless t := by
  intro p hp
  have hTick : '\x60' ∉ p := fun h => ht (hp.subset h)
  clear hp
  induction p using List.reverseRecOn with
  | nil => exact hs
  | append_singleton p c ih =>
    rw [List.mem_append, not_or, List.mem_singleton] at hTick
    have hBefore := ih hTick.1
    rw [run_append]
    show (s.run p).mode.next c ≠ .tag
    have hc : c ≠ '\x60' := Ne.symm hTick.2
    -- no mode but the tag itself leads to a tag without a backtick
    cases hMode : (s.run p).mode with
    | code =>
      simp only [Mode.next, Mode.entered, if_neg hc]
      split <;> simp
    | slash =>
      simp only [Mode.next, Mode.entered, if_neg hc]
      split <;> simp
    | tag => exact absurd hMode hBefore
    | comment =>
      simp only [Mode.next]
      split <;> simp

/-- The splitter reads the text in one piece, without coming upon a tag. -/
structure Glides (s : Scan) (t : Text) (s' : Scan) : Prop where
  passes : Passes s t s'
  tagless : s.Tagless t

namespace Glides

theorem of_passes (h : Passes s t s') (hs : s.mode ≠ .tag) (ht : '\x60' ∉ t) : Glides s t s' :=
  ⟨h, tagless_of_no_backtick hs ht⟩

theorem append (ht : Glides s t s') (hu : Glides s' u s'') : Glides s (t ++ u) s'' :=
  ⟨ht.passes.append hu.passes, ht.tagless.append (by rw [ht.passes.run_eq]; exact hu.tagless)⟩

end Glides

/-- A comment holds no tag, whatever it holds. -/
theorem glides_in_comment (ht : '\n' ∉ t) : Glides ⟨.comment, d⟩ t ⟨.comment, d⟩ := by
  refine ⟨passes_in_comment ht, ?_⟩
  intro p hp
  rw [(passes_in_comment fun h => ht (hp.subset h)).run_eq]
  simp

/-! ## Lines without tags -/

/-- The code of a line holds no mark: the comment is cut off, and a backtick would open a tag. -/
theorem unmarked_cut (h : Tagless ⟨.code, d⟩ l) : Row.Unmarked (Comment.cut l) := by
  have hComment : ¬ Comment.mark <:+: Comment.cut l :=
    Text.not_infix_before (by simp [Comment.mark]) l
  refine ⟨?_, hComment⟩
  intro hTick
  -- up to its first backtick, the scan is in code
  obtain ⟨a, b, hSplit, ha⟩ := List.eq_append_cons_of_mem hTick
  have hBare : ¬ Comment.mark <:+: a := fun ha => hComment (hSplit ▸ ha.trans ⟨[], _, rfl⟩)
  have hPrefix : a ++ ['\x60'] <+: l := by
    refine List.IsPrefix.trans ⟨b, ?_⟩ (Text.before_isPrefix Comment.mark l)
    rw [← Comment.cut, hSplit, List.append_assoc, List.singleton_append]
  refine h _ hPrefix ?_
  rw [run_append]
  show (run ⟨.code, d⟩ a).mode.next '\x60' = .tag
  rw [run_plain ha hBare, Text.endMode]
  split <;> rfl

/-- Two slashes open a comment, unless they stand in a tag. -/
theorem mode_run_mark (hm : m ≠ .tag) : (run ⟨m, d⟩ Comment.mark).mode = .comment := by
  cases m with
  | tag => exact absurd rfl hm
  | _ => rfl

/-- A line that leaves the scan in code holds no comment either. -/
theorem unmarked_of_isCode (hLine : '\n' ∉ l) (h : Tagless ⟨.code, d⟩ l)
    (hCode : (run ⟨.code, d⟩ l).mode.isCode = true) : Row.Unmarked l := by
  have hComment : ¬ Comment.mark <:+: l := by
    rintro ⟨a, b, rfl⟩
    have hOpen : (run ⟨.code, d⟩ (a ++ Comment.mark)).mode = .comment := by
      rw [run_append]
      exact mode_run_mark (h a ⟨Comment.mark ++ b, by simp⟩)
    have hRest : '\n' ∉ b := fun hb => hLine (List.mem_append_right _ hb)
    -- the comment goes on to the end of the line
    have hEnd : (run ⟨.code, d⟩ (a ++ Comment.mark ++ b)).mode = .comment := by
      rw [run_append]
      generalize run ⟨.code, d⟩ (a ++ Comment.mark) = s at hOpen
      obtain ⟨m, e⟩ := s
      obtain rfl : m = .comment := hOpen
      rw [(passes_in_comment hRest).run_eq]
    rw [hEnd] at hCode
    exact Bool.false_ne_true hCode
  have hCut := unmarked_cut h
  rwa [Comment.cut, Text.before_of_not_infix hComment] at hCut

/-- Behind a line feed, the scan is in code. -/
theorem run_append_newline (s : Scan) (t : Text) :
    s.run (t ++ ['\n']) = ⟨.code, (s.run t).depth⟩ := by
  rw [run_append]
  exact step_newline _ _

end Scan

/-! ## The lines of a piece -/

variable {ps : List Text} {l t u w y pad : Text} {x : Char} {d : Int}

/-- The lines that a piece is folded from. -/
def foldParts (piece : Text) : List Text :=
  (foldedLines (Text.lines piece)).filter fun line => !line.isEmpty

theorem fold_eq (piece : Text) : fold piece = joinLines (foldParts piece) := rfl

/-- A single line is stripped, and a carriage return at its end with it. -/
theorem foldParts_line (hLined : Text.isLined l = true) (hl : '\n' ∉ l) (hne : Text.strip l ≠ []) :
    foldParts l = [Text.strip l] := by
  obtain ⟨m, hm, hFree⟩ := Text.exists_line_of_isLined hLined hl
  have hStrip : Text.strip l = Text.strip m := by
    rcases hm with rfl | rfl
    · rfl
    · exact Text.strip_append_blank (by simp; decide)
  have hLine : m ≠ [] := by
    rintro rfl
    exact hne hStrip
  have hLines : Text.lines l = [m] := by
    rcases hm with rfl | rfl
    · exact Text.lines_of_no_break hFree hLine
    · exact Text.lines_of_return hFree
  rw [hStrip] at hne ⊢
  rw [foldParts, hLines, foldedLines, List.filter_cons_of_pos (by simpa using hne)]
  rfl

/-- A line loses its comment if others follow it. -/
theorem foldParts_append_newline (hLined : Text.isLined l = true) (hl : '\n' ∉ l) (ht : t ≠ []) :
    foldParts (l ++ '\n' :: t) =
      [Text.strip (Comment.cut l)].filter (fun line => !line.isEmpty) ++ foldParts t := by
  obtain ⟨m, hm, hFree⟩ := Text.exists_line_of_isLined hLined hl
  have hLines : Text.lines (l ++ '\n' :: t) = m :: Text.lines t := by
    rcases hm with rfl | rfl
    · exact Text.lines_of_line hFree t
    · rw [List.append_assoc]
      exact Text.lines_of_returned_line hFree t
  have hCut : Text.strip (Comment.cut l) = Text.strip (Comment.cut m) := by
    rcases hm with rfl | rfl
    · rfl
    · exact Text.strip_before_append_singleton (by decide) (by decide) m
  obtain ⟨next, rest, hRest⟩ := List.exists_cons_of_ne_nil (Text.lines_ne_nil ht)
  rw [foldParts, hLines, foldParts, hRest, foldedLines, hCut]
  · rw [← List.filter_append]
    rfl
  · simp

/-- The parts that a piece is folded from: unmarked ones, and at last the one that the trailer
stands on. -/
theorem exists_foldParts (hTagless : Scan.Tagless ⟨.code, d⟩ t)
    (hCode : (Scan.run ⟨.code, d⟩ t).mode.isCode = true) (hLast : t.getLast? = some '}')
    (hLined : Text.isLined (t ++ u) = true) (hu : '\n' ∉ u) :
    ∃ ps last, foldParts (t ++ u) = ps ++ [Text.strip (last ++ u)] ∧
      (∀ p ∈ ps, Row.Unmarked p) ∧ Row.Unmarked last ∧ last.getLast? = some '}' := by
  induction t using Text.lines_induction generalizing d with
  | line l hl =>
    refine ⟨[], l, ?_, by simp, Scan.unmarked_of_isCode hl hTagless hCode, hLast⟩
    refine foldParts_line hLined (by simp [hl, hu]) ?_
    -- the brace at its end is no blank
    obtain ⟨a, rfl⟩ := List.getLast?_eq_some_iff.mp hLast
    intro hEmpty
    have hBlank := Text.isBlank_of_strip_eq_nil hEmpty
    exact absurd (hBlank '}' (by simp)) (by decide)
  | next l t hl ih =>
    -- behind the line feed, the scan is in code again, so the rest is a text of the same kind
    have hSplit : l ++ '\n' :: t = l ++ ['\n'] ++ t := by simp
    rw [hSplit] at hTagless hCode
    have hRest := hTagless.of_append
    rw [Scan.run_append_newline] at hRest
    rw [Scan.run_append, Scan.run_append_newline] at hCode
    have ht : t ≠ [] := by
      rintro rfl
      rw [List.getLast?_concat] at hLast
      exact absurd hLast (by simp)
    rw [List.getLast?_append_of_ne_nil _ (by simp), List.getLast?_cons_of_ne_nil ht] at hLast
    rw [List.append_assoc, List.cons_append] at hLined ⊢
    obtain ⟨hLine, hTail⟩ := Text.isLined_of_append hLined
    rw [Text.isLined_cons_iff] at hTail
    obtain ⟨ps, last, hParts, hps, hUnmarked, hEnd⟩ := ih hRest hCode hLast hTail.2
    refine ⟨[Text.strip (Comment.cut l)].filter (fun line => !line.isEmpty) ++ ps, last, ?_, ?_,
      hUnmarked, hEnd⟩
    · rw [foldParts_append_newline hLine hl (by simp [ht]), hParts, List.append_assoc]
    · intro p hp
      rcases List.mem_append.mp hp with hp | hp
      · obtain rfl := List.mem_singleton.mp (List.mem_of_mem_filter hp)
        exact (Scan.unmarked_cut (hTagless.of_prefix ⟨'\n' :: t, by simp⟩)).of_isInfix
          Text.strip_isInfix
      · exact hps p hp

/-! ## Joining the lines -/

theorem joinLines_cons_append (hne : y ≠ []) (w : Text) (ps : List Text) :
    joinLines ((w ++ y) :: ps) = w ++ joinLines (y :: ps) := by
  cases ps with
  | nil => rfl
  | cons p ps =>
    -- the seam looks at the end of the line above, which stays the same
    have hSeam : seam (w ++ y) p = seam y p := by
      rw [seam, seam, List.getLast?_append_of_ne_nil _ hne]
    rw [joinLines, joinLines, hSeam]
    simp

/-- Unmarked parts are joined to an unmarked text, which starts with the first and ends with the
last. -/
theorem exists_joinLines (hps : ∀ p ∈ ps, Row.Unmarked p) (hy : Row.Unmarked y) (u : Text) :
    ∃ v, joinLines (ps ++ [y ++ u]) = v ++ u ∧ Row.Unmarked v ∧ y <:+ v ∧
      ∀ p ∈ ps.head?, p <+: v := by
  induction ps with
  | nil => exact ⟨y, rfl, hy, List.suffix_rfl, by simp⟩
  | cons p ps ih =>
    rw [List.forall_mem_cons] at hps
    obtain ⟨v, hJoin, hv, hSuffix, -⟩ := ih hps.2
    obtain ⟨next, rest, hNext⟩ :=
      List.exists_cons_of_ne_nil (l := ps ++ [y ++ u]) (by simp)
    -- the first part, the seam, and what the others are joined to
    refine ⟨p ++ (seam p next ++ v), ?_, ?_, ?_, ?_⟩
    · rw [List.cons_append, hNext, joinLines, ← hNext, hJoin]
      simp
    · -- the seam parts the marks of its two sides
      unfold seam
      split
      · exact hps.1.append_cons hv (by decide) (by decide)
      · have hSpace : Row.Unmarked ([] ++ ' ' :: v) :=
          Row.Unmarked.append_cons ⟨by simp, by simp [Comment.mark]⟩ hv (by decide) (by decide)
        exact hps.1.append_cons hSpace (by decide) (by decide)
    · exact hSuffix.trans ⟨p ++ seam p next, by simp⟩
    · rintro q ⟨⟩
      exact List.prefix_append p _

/-! ## Folding -/

/-- A piece of several lines, without a tag in its code up to the last brace, is folded to its first
words, an unmarked text, and what stands behind the brace. -/
theorem exists_fold (hPad : ∀ c ∈ pad, Text.isBlank c = true)
    (hHead : ∀ c ∈ w.head?, Text.isBlank c = false) (hw : w ≠ [])
    (hMark : ¬ Comment.mark <:+: pad ++ w) (hx : Text.isBlank x = false) (hSlash : x ≠ '/')
    (hLine : '\n' ∉ pad ++ w ++ x :: l)
    (hTagless : Scan.Tagless ⟨.code, d⟩ (pad ++ w ++ x :: l ++ '\n' :: t))
    (hCode : (Scan.run ⟨.code, d⟩ (pad ++ w ++ x :: l ++ '\n' :: t)).mode.isCode = true)
    (hLast : t.getLast? = some '}')
    (hLined : Text.isLined (pad ++ w ++ x :: l ++ '\n' :: t ++ u) = true) (hu : '\n' ∉ u) :
    ∃ v, fold (pad ++ w ++ x :: l ++ '\n' :: t ++ u) = w ++ (v ++ Text.stripEnd u) ∧
      v.getLast? = some '}' ∧ Text.strip v = v ∧ Row.Unmarked v := by
  -- the first line is cut behind the first words
  have hCut : Comment.cut (pad ++ w ++ x :: l) = pad ++ w ++ x :: Comment.cut l :=
    Text.before_append_cons (by simp [Comment.mark, hSlash]) (by simp [Comment.mark]) hMark l
  have hFirst : Text.strip (Comment.cut (pad ++ w ++ x :: l)) =
      w ++ x :: Text.stripEnd (Comment.cut l) := by
    rw [hCut, List.append_assoc, Text.strip_blank_append hPad, Text.strip, Text.stripStart,
      Text.dropWhile_eq_self, Text.stripEnd_append_cons hx]
    rwa [List.head?_append_of_ne_nil _ hw]
  have hUnmarkedFirst : Row.Unmarked (x :: Text.stripEnd (Comment.cut l)) := by
    have hWhole : Row.Unmarked (Text.strip (Comment.cut (pad ++ w ++ x :: l))) :=
      (Scan.unmarked_cut (hTagless.of_prefix (List.prefix_append _ _))).of_isInfix
        Text.strip_isInfix
    rw [hFirst] at hWhole
    exact hWhole.of_isInfix (List.suffix_append w _).isInfix
  -- the lines behind it
  have hSplit : pad ++ w ++ x :: l ++ '\n' :: t = pad ++ w ++ x :: l ++ ['\n'] ++ t := by simp
  rw [hSplit] at hTagless hCode
  have hRest := hTagless.of_append
  rw [Scan.run_append_newline] at hRest
  rw [Scan.run_append, Scan.run_append_newline] at hCode
  rw [List.append_assoc (pad ++ w ++ x :: l), List.cons_append] at hLined ⊢
  obtain ⟨hLinedFirst, hLinedRest⟩ := Text.isLined_of_append hLined
  rw [Text.isLined_cons_iff] at hLinedRest
  obtain ⟨ps, last, hParts, hps, hUnmarkedLast, hEnd⟩ :=
    exists_foldParts hRest hCode hLast hLinedRest.2 hu
  -- the last one ends with a brace, so the blanks behind that are those of the trailer
  obtain ⟨a, rfl⟩ := List.getLast?_eq_some_iff.mp hEnd
  have hStripLast : Text.strip (a ++ ['}'] ++ u) =
      Text.stripStart (a ++ ['}']) ++ Text.stripEnd u := by
    have hStart : Text.stripStart (a ++ ['}'] ++ u) = Text.stripStart a ++ '}' :: u := by
      rw [List.append_assoc, List.singleton_append, Text.stripStart,
        Text.dropWhile_append_cons (by decide)]
      rfl
    have hStart' : Text.stripStart (a ++ ['}']) = Text.stripStart a ++ ['}'] := by
      rw [Text.stripStart, Text.dropWhile_append_cons (by decide)]
      rfl
    rw [Text.strip, hStart, hStart', Text.stripEnd_append_cons (by decide), List.append_assoc,
      List.singleton_append]
  have hUnmarkedEnd : Row.Unmarked (Text.stripStart (a ++ ['}'])) :=
    hUnmarkedLast.of_isInfix (List.dropWhile_suffix _).isInfix
  have hAll : ∀ p ∈ (x :: Text.stripEnd (Comment.cut l)) :: ps, Row.Unmarked p :=
    List.forall_mem_cons.mpr ⟨hUnmarkedFirst, hps⟩
  obtain ⟨v, hJoin, hv, hSuffix, hPrefix⟩ :=
    exists_joinLines hAll hUnmarkedEnd (Text.stripEnd u)
  have hStarts : ∃ r, v = x :: r := by
    obtain ⟨r, hr⟩ := hPrefix _ rfl
    exact ⟨Text.stripEnd (Comment.cut l) ++ r, hr.symm⟩
  have hEnds : v.getLast? = some '}' := by
    obtain ⟨r, rfl⟩ := hSuffix
    rw [Text.stripStart, Text.dropWhile_append_cons (by decide), ← List.append_assoc,
      List.getLast?_concat]
  obtain ⟨r, hr⟩ := hStarts
  refine ⟨v, ?_, hEnds, ?_, hv⟩
  · have hRestNe : t ++ u ≠ [] := by
      rintro hNil
      rw [(List.append_eq_nil_iff.mp hNil).1] at hLast
      simp at hLast
    rw [fold_eq, foldParts_append_newline hLinedFirst hLine hRestNe, hParts, hFirst, hStripLast,
      List.filter_cons_of_pos (by simp), List.filter_nil, List.singleton_append,
      ← List.cons_append, List.cons_append, joinLines_cons_append (by simp), ← List.cons_append,
      hJoin]
  · rw [Text.strip_eq_self_iff, hEnds, hr]
    constructor
    · rintro _ ⟨⟩
      exact hx
    · rintro _ ⟨⟩
      decide

end FieldHint.Body
