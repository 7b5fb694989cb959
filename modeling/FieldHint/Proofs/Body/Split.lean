import FieldHint.Body.Pieces
import FieldHint.Proofs.Text.Scan

/-!
# Struct bodies — where they are split

A body is split by one scan from its start to its end, so its chunks can be found part by part.
`Passes` is a text that the scan reads without splitting it:

* `Passes.chunks_append` — such a text goes in front of the next chunk;
* `chunks_append_of_split` — a separator ends the chunk;
* `passes_bare` — code is passed if its braces are balanced and its semicolons inside them; tags
  and comments are passed whatever they hold, up to the end of the line.
-/

namespace FieldHint.Body.Scan

variable {s s' s'' : Scan} {t u : Text} {c : Char} {d : Int} {m : Mode}

theorem run_cons (s : Scan) (c : Char) (t : Text) : s.run (c :: t) = (s.step c).run t := rfl

theorem run_append (s : Scan) (t u : Text) : s.run (t ++ u) = (s.run t).run u :=
  List.foldl_append

/-! ## Passing over text -/

theorem chunks_ne_nil (s : Scan) (t : Text) : s.chunks t ≠ [] := by
  cases t with
  | nil => simp [chunks]
  | cons c t =>
    rw [chunks]
    split
    · simp
    · cases (s.step c).chunks t <;> simp [Text.consHead]

/-- Text in front of the first chunk. -/
def prependHead (t : Text) (ts : List Text) : List Text := t.foldr Text.consHead ts

@[simp] theorem prependHead_cons (t u : Text) (us : List Text) :
    prependHead t (u :: us) = (t ++ u) :: us := by
  induction t with
  | nil => rfl
  | cons c t ih =>
    rw [prependHead, List.foldr_cons, ← prependHead, ih]
    rfl

/-- The scan reads the text without splitting it, and comes out in a state. -/
abbrev Passes (s : Scan) (t : Text) (s' : Scan) : Prop := Text.Passes step splitsAt s t s'

namespace Passes

theorem run_eq (h : Passes s t s') : s.run t = s' := h.foldl_eq

/-- A text that is passed goes in front of the next chunk. -/
theorem chunks_append (ht : Passes s t s') (u : Text) :
    s.chunks (t ++ u) = prependHead t (s'.chunks u) := by
  induction ht with
  | nil => rfl
  | cons hc hStep _ ih =>
    rw [List.cons_append, chunks, if_neg (Bool.not_eq_true _ ▸ hc), hStep, ih]
    rfl

theorem chunks_eq (ht : Passes s t s') : s.chunks t = [t] := by
  have hChunks := ht.chunks_append []
  rwa [chunks, prependHead_cons, List.append_nil] at hChunks

end Passes

/-- A separator ends the chunk before it. -/
theorem chunks_append_of_split (ht : Passes s t s') (hc : s'.splitsAt c = true) (u : Text) :
    s.chunks (t ++ c :: u) = t :: (s'.step c).chunks u := by
  rw [ht.chunks_append, chunks, if_pos hc, prependHead_cons, List.append_nil]

/-- Text in front of a separator is split as it is on its own. -/
theorem chunks_append_separator (hc : (s.run t).splitsAt c = true) (u : Text) :
    s.chunks (t ++ c :: u) = s.chunks t ++ ((s.run t).step c).chunks u := by
  induction t generalizing s with
  | nil =>
    change s.splitsAt c = true at hc
    have hSplit : s.chunks (c :: u) = [] :: (s.step c).chunks u := by
      rw [chunks, if_pos hc]
    exact hSplit
  | cons d t ih =>
    rw [List.cons_append, chunks, chunks, run_cons, ih hc]
    split
    · rfl
    · obtain ⟨v, vs, hv⟩ := List.exists_cons_of_ne_nil (chunks_ne_nil (s.step d) t)
      rw [hv]
      rfl

theorem step_of_isCode (hm : m.isCode = true) :
    step ⟨m, d⟩ c = ⟨m.next c, d + Brace.weight c⟩ := by
  simp [step, weight, Brace.weight, hm]

theorem step_of_not_isCode (hm : m.isCode = false) : step ⟨m, d⟩ c = ⟨m.next c, d⟩ := by
  simp [step, weight, hm]

theorem splitsAt_of_not_isCode (hm : m.isCode = false) (hc : c ≠ '\n') :
    splitsAt ⟨m, d⟩ c = false := by
  simp [splitsAt, hm, hc]

theorem splitsAt_of_ne (hNewline : c ≠ '\n') (hSemicolon : c ≠ ';') : s.splitsAt c = false := by
  simp [splitsAt, hNewline, hSemicolon]

/-! ## Code -/

/-- Text of a field that only braces structure: no tag, no comment, no line feed, and every
semicolon inside a brace. -/
structure Bare (t : Text) : Prop where
  no_backtick : '\x60' ∉ t
  no_comment : ¬ Comment.mark <:+: t
  no_newline : '\n' ∉ t
  nested_semicolon : ∀ p, p ++ [';'] <+: t → 0 < Brace.depth p

theorem bare_iff :
    Bare t ↔ ('\x60' ∉ t ∧ ¬ Comment.mark <:+: t ∧ '\n' ∉ t) ∧
      ∀ p ∈ t.inits, p ++ [';'] <+: t → 0 < Brace.depth p := by
  simp only [List.mem_inits]
  constructor
  · intro h
    exact ⟨⟨h.no_backtick, h.no_comment, h.no_newline⟩, fun p _ => h.nested_semicolon p⟩
  · rintro ⟨⟨hTick, hComment, hNewline⟩, hSemicolon⟩
    exact ⟨hTick, hComment, hNewline,
      fun p hp => hSemicolon p ((List.prefix_append p [';']).trans hp) hp⟩

instance : Decidable (Bare t) := decidable_of_iff _ bare_iff.symm

/-- Besides a comment, a tag may open in code. -/
instance : Text.CodeMode Mode where
  code := .code
  slash := .slash
  isCode := Mode.isCode
  next := Mode.next
  opens c := c = '\x60'
  isCode_code := rfl
  isCode_slash := rfl
  next_code h := by simp [Mode.next, Mode.entered, of_decide_eq_false h]
  next_slash h hSlash := by simp [Mode.next, Mode.entered, of_decide_eq_false h, hSlash]

theorem isPlain (hTick : '\x60' ∉ t) (hComment : ¬ Comment.mark <:+: t) : Text.IsPlain Mode t where
  opens c hc := by
    have hNot : c ≠ '\x60' := fun hEq => hTick (hEq ▸ hc)
    exact decide_eq_false hNot
  no_comment := hComment

/-- Without a tag and a comment, every brace counts, and the scan stays in code. -/
theorem run_plain (hTick : '\x60' ∉ t) (hComment : ¬ Comment.mark <:+: t) (d : Int) :
    run ⟨.code, d⟩ t = ⟨Text.endMode t, d + Brace.depth t⟩ :=
  Text.foldl_plain (fun _ _ _ => step_of_isCode) (isPlain hTick hComment) d

/-- Bare code with balanced braces is passed: its semicolons stand inside braces, where nothing is
split. -/
theorem passes_bare (h : Bare t) (hBalanced : Brace.Balanced t) (hd : 0 ≤ d) :
    Passes ⟨.code, d⟩ t ⟨Text.endMode t, d⟩ := by
  have hPasses : Passes ⟨.code, d⟩ t ⟨Text.endMode t, d + Brace.depth t⟩ := by
    refine Text.passes_plain (fun _ _ _ => step_of_isCode) (isPlain h.no_backtick h.no_comment) d ?_
    intro p c hp
    by_cases hSemicolon : c = ';'
    · subst hSemicolon
      have hInside := h.nested_semicolon p hp
      have hDeep : ¬ d + Brace.depth p ≤ 0 := by omega
      simp [splitsAt, hDeep]
    · have hNewline : c ≠ '\n' := by
        rintro rfl
        exact h.no_newline (hp.subset (by simp))
      exact splitsAt_of_ne hNewline hSemicolon
  rwa [hBalanced.total, add_zero] at hPasses

/-! ## Blanks, tags, comments and the end of a line -/

/-- A line feed leads back to code from everywhere. -/
theorem step_newline (m : Mode) (d : Int) : step ⟨m, d⟩ '\n' = ⟨.code, d⟩ := by
  cases m <;> simp [step, weight, Mode.next, Mode.entered, Mode.isCode]

theorem splitsAt_newline (hd : d ≤ 0) : splitsAt ⟨m, d⟩ '\n' = true := by
  simp [splitsAt, hd]

/-- A character that the splitter takes as it is, wherever it reads code. -/
def IsInert (c : Char) : Prop := c ∉ ['\x60', '/', '{', '}', ';', '\n']

instance : DecidablePred IsInert := fun c =>
  inferInstanceAs (Decidable (c ∉ ['\x60', '/', '{', '}', ';', '\n']))

/-- Inert characters are passed in code, and lead back from a lone slash. -/
theorem passes_inert (hne : t ≠ []) (ht : ∀ c ∈ t, IsInert c) (hm : m.isCode = true) :
    Passes ⟨m, d⟩ t ⟨.code, d⟩ := by
  -- one character
  have hOne : ∀ {m : Mode} {c : Char}, m.isCode = true → IsInert c →
      Passes ⟨m, d⟩ [c] ⟨.code, d⟩ := by
    intro m c hm hc
    simp only [IsInert, List.mem_cons, List.not_mem_nil, or_false, not_or] at hc
    obtain ⟨hTick, hSlash, hOpen, hClose, hSemicolon, hNewline⟩ := hc
    refine .char (splitsAt_of_ne hNewline hSemicolon) ?_
    cases m <;> simp_all [step, weight, Mode.next, Mode.entered, Mode.isCode]
  induction t generalizing m with
  | nil => exact absurd rfl hne
  | cons c t ih =>
    rw [List.forall_mem_cons] at ht
    by_cases hEnd : t = []
    · subst hEnd
      exact hOne hm ht.1
    · exact (hOne hm ht.1).append (ih hEnd ht.2 rfl)

/-- An opening brace leads one level in. -/
theorem passes_open (hm : m.isCode = true) : Passes ⟨m, d⟩ ['{'] ⟨.code, d + 1⟩ := by
  refine .char (splitsAt_of_ne (by decide) (by decide)) ?_
  cases m <;> simp_all [step, weight, Mode.next, Mode.entered, Mode.isCode]

/-- A closing brace leads one level out. -/
theorem passes_close (hm : m.isCode = true) : Passes ⟨m, d + 1⟩ ['}'] ⟨.code, d⟩ := by
  refine .char (splitsAt_of_ne (by decide) (by decide)) ?_
  cases m <;> simp_all [step, weight, Mode.next, Mode.entered, Mode.isCode]

theorem passes_in_tag (hTick : '\x60' ∉ t) (hNewline : '\n' ∉ t) :
    Passes ⟨.tag, d⟩ t ⟨.tag, d⟩ := by
  refine .stay fun c hc => ?_
  have hNotTick : c ≠ '\x60' := fun hEq => hTick (hEq ▸ hc)
  have hNotNewline : c ≠ '\n' := fun hEq => hNewline (hEq ▸ hc)
  refine ⟨splitsAt_of_not_isCode rfl hNotNewline, ?_⟩
  rw [step_of_not_isCode rfl, Mode.next, if_neg (not_or.mpr ⟨hNotTick, hNotNewline⟩)]

theorem passes_in_comment (hNewline : '\n' ∉ t) : Passes ⟨.comment, d⟩ t ⟨.comment, d⟩ := by
  refine .stay fun c hc => ?_
  have hNotNewline : c ≠ '\n' := fun hEq => hNewline (hEq ▸ hc)
  refine ⟨splitsAt_of_not_isCode rfl hNotNewline, ?_⟩
  rw [step_of_not_isCode rfl, Mode.next, if_neg hNotNewline]

/-- A tag on one line is passed, whatever it holds. -/
theorem passes_tag (hTick : '\x60' ∉ t) (hNewline : '\n' ∉ t) (hm : m.isCode = true) :
    Passes ⟨m, d⟩ ('\x60' :: t ++ ['\x60']) ⟨.code, d⟩ := by
  have hOpen : step ⟨m, d⟩ '\x60' = ⟨.tag, d⟩ := by
    cases m <;> simp_all [step, weight, Mode.next, Mode.entered, Mode.isCode]
  have hClose : step ⟨.tag, d⟩ '\x60' = ⟨.code, d⟩ := step_of_not_isCode rfl
  exact (Text.Passes.cons (splitsAt_of_ne (by decide) (by decide)) hOpen
    (passes_in_tag hTick hNewline)).append (.char (splitsAt_of_ne (by decide) (by decide)) hClose)

/-- A comment is passed up to the end of its line, whatever it holds. -/
theorem passes_comment (hNewline : '\n' ∉ t) (hm : m.isCode = true) :
    Passes ⟨m, d⟩ ('/' :: '/' :: t) ⟨.comment, d⟩ := by
  have hSplits : ∀ s : Scan, s.splitsAt '/' = false :=
    fun s => splitsAt_of_ne (by decide) (by decide)
  have hSecond : step ⟨.slash, d⟩ '/' = ⟨.comment, d⟩ := by
    simp [step, weight, Mode.next]
  cases m with
  | code =>
    have hFirst : step ⟨.code, d⟩ '/' = ⟨.slash, d⟩ := by
      simp [step, weight, Mode.next, Mode.entered]
    exact .cons (hSplits _) hFirst (.cons (hSplits _) hSecond (passes_in_comment hNewline))
  | slash =>
    -- the slash before it has opened a comment already
    exact .cons (hSplits _) hSecond (passes_in_comment (by simp [hNewline]))
  | tag => exact absurd hm Bool.false_ne_true
  | comment => exact absurd hm Bool.false_ne_true

end FieldHint.Body.Scan
