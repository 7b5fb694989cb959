import FieldHint.Brace
import FieldHint.Comment
import FieldHint.Proofs.Text.Scan

/-!
# Braces — the span up to the closing brace

The search for a closing brace reads no further than the brace it finds, so the span it finds can
be cut out of its text and put into another:

* `closing?_append` — a search goes on behind a text that does not end it;
* `closing?_eq_some_iff` — what a search finds, and that the rest of the text has no say;
* `depth_run_pos` — before the brace it finds, the search never runs out of open braces.

`Passes` is what most proofs use: a text that the search passes, from one state to another. Text
without quotes and comments is passed if its braces are balanced, and so is a raw string, and a
comment up to the end of its line, whatever they hold.

`IsBody` is the outcome for a struct body: a text that the brace right behind it closes, wherever
the two stand. Behind an opening brace, a search finds the end of one (`closing?_open`). `IsSpan` is
the same for a search that starts at any offset, and says that what it finds depends on the span
alone (`closing?_slice`).
-/

namespace FieldHint.Brace.Scan

variable {s s' s'' : Scan} {t u p tag : Text} {c : Char} {d : Int} {m : Mode} {n : Nat}

theorem run_cons (s : Scan) (c : Char) (t : Text) : s.run (c :: t) = (s.step c).run t := rfl

theorem run_append (s : Scan) (t u : Text) : s.run (t ++ u) = (s.run t).run u :=
  List.foldl_append

/-! ## Searches in parts of a text -/

theorem closing?_append (s : Scan) (t u : Text) :
    s.closing? (t ++ u) = (s.closing? t).or (((s.run t).closing? u).map (· + t.length)) := by
  induction t generalizing s with
  | nil => simp [closing?, run]
  | cons c t ih =>
    rw [List.cons_append, closing?, closing?, ih, run_cons]
    split
    · rfl
    · cases (s.step c).closing? t <;> cases ((s.step c).run t).closing? u <;> simp [Nat.add_assoc]

theorem eq_of_closesAt (h : s.closesAt c = true) : c = '}' := by
  simp only [closesAt, Bool.and_eq_true, decide_eq_true_eq] at h
  exact h.1.2

/-- A search ends at the first brace that closes the last open one. What follows that brace has
no say. -/
theorem closing?_eq_some_iff :
    s.closing? t = some n ↔
      ∃ a u, t = a ++ '}' :: u ∧ a.length = n ∧ s.closing? a = none ∧
        (s.run a).closesAt '}' = true := by
  constructor
  · intro h
    -- the search moves on from state to state, so the induction is over all of them
    induction t generalizing s n with
    | nil => simp [closing?] at h
    | cons c t ih =>
      rw [closing?] at h
      split at h
      · next hc =>
        obtain rfl := eq_of_closesAt hc
        exact ⟨[], t, rfl, by simpa using h, rfl, hc⟩
      · next hc =>
        obtain ⟨k, hk, rfl⟩ := Option.map_eq_some_iff.mp h
        obtain ⟨a, u, rfl, rfl, ha, hLast⟩ := ih hk
        refine ⟨c :: a, u, rfl, rfl, ?_, hLast⟩
        rw [closing?, if_neg hc, ha]
        rfl
  · rintro ⟨a, u, rfl, rfl, ha, hLast⟩
    rw [closing?_append, ha, Option.none_or, closing?, if_pos hLast]
    simp

/-! ## Passing over text -/

/-- The search reads the text without ending in it, and comes out in a state. -/
abbrev Passes (s : Scan) (t : Text) (s' : Scan) : Prop := Text.Passes step closesAt s t s'

namespace Passes

theorem run_eq (h : Passes s t s') : s.run t = s' := h.foldl_eq

theorem unclosed (h : Passes s t s') : s.closing? t = none := by
  induction h with
  | nil => rfl
  | cons hc hStep _ ih =>
    rw [closing?, if_neg (Bool.not_eq_true _ ▸ hc), hStep, ih]
    rfl

/-- The search goes on behind a text that it passes. -/
theorem closing?_append (ht : Passes s t s') (u : Text) :
    s.closing? (t ++ u) = (s'.closing? u).map (· + t.length) := by
  rw [Scan.closing?_append, ht.unclosed, ht.run_eq, Option.none_or]

end Passes

/-- A text in which the search does not end is passed. -/
theorem passes_of_unclosed (h : s.closing? t = none) : Passes s t (s.run t) := by
  induction t generalizing s with
  | nil => exact .nil
  | cons c t ih =>
    rw [closing?] at h
    split at h
    · simp at h
    · next hc =>
      rw [Option.map_eq_none_iff] at h
      exact .cons (Bool.eq_false_of_not_eq_true hc) rfl (ih h)

theorem closesAt_of_ne (hc : c ≠ '}') : s.closesAt c = false := by
  simp [closesAt, hc]

theorem closesAt_of_not_isCode (hm : m.isCode = false) : closesAt ⟨m, d⟩ c = false := by
  simp [closesAt, hm]

theorem step_of_isCode (hm : m.isCode = true) :
    step ⟨m, d⟩ c = ⟨m.next c, d + Brace.weight c⟩ := by
  simp [step, weight, Brace.weight, hm]

theorem step_of_not_isCode (hm : m.isCode = false) : step ⟨m, d⟩ c = ⟨m.next c, d⟩ := by
  simp [step, weight, hm]

/-! ## Code -/

/-- Text in which nothing hides a brace: no quote, no backtick, no comment. -/
structure Bare (t : Text) : Prop where
  no_quote : '"' ∉ t
  no_backtick : '\x60' ∉ t
  no_comment : ¬ Comment.mark <:+: t

/-- Besides a comment, a quoted string and a raw string may open in code. -/
instance : Text.CodeMode Mode where
  code := .code
  slash := .slash
  isCode := Mode.isCode
  next := Mode.next
  opens c := c = '"' || c = '\x60'
  isCode_code := rfl
  isCode_slash := rfl
  next_code h := by
    simp only [Bool.or_eq_false_iff, decide_eq_false_iff_not] at h
    simp [Mode.next, Mode.entered, h.1, h.2]
  next_slash h hSlash := by
    simp only [Bool.or_eq_false_iff, decide_eq_false_iff_not] at h
    simp [Mode.next, Mode.entered, h.1, h.2, hSlash]

theorem Bare.isPlain (h : Bare t) : Text.IsPlain Mode t where
  opens c hc := by
    have hQuote : c ≠ '"' := fun hEq => h.no_quote (hEq ▸ hc)
    have hTick : c ≠ '\x60' := fun hEq => h.no_backtick (hEq ▸ hc)
    simp [Text.CodeMode.opens, hQuote, hTick]
  no_comment := h.no_comment

/-- In bare code every brace counts. -/
theorem run_bare (h : Bare t) (d : Int) :
    run ⟨.code, d⟩ t = ⟨Text.endMode t, d + Brace.depth t⟩ :=
  Text.foldl_plain (fun _ _ _ => step_of_isCode) h.isPlain d

/-- Bare code with balanced braces is passed inside a brace. -/
theorem passes_bare (h : Bare t) (hBalanced : Brace.Balanced t) (hd : 0 < d) :
    Passes ⟨.code, d⟩ t ⟨Text.endMode t, d⟩ := by
  have hPasses : Passes ⟨.code, d⟩ t ⟨Text.endMode t, d + Brace.depth t⟩ := by
    refine Text.passes_plain (fun _ _ _ => step_of_isCode) h.isPlain d ?_
    intro p c hp
    by_cases hc : c = '}'
    · -- the depth behind the brace would be zero, but balanced text does not go below `d`
      subst hc
      have hPrefix := hBalanced.nonneg (p ++ ['}']) hp
      rw [Brace.depth_append, Brace.depth_cons, Brace.weight_close, Brace.depth_nil] at hPrefix
      have hNotLast : ¬ d + Brace.depth p = 1 := by omega
      simp [closesAt, hNotLast]
    · exact closesAt_of_ne hc
  rwa [hBalanced.total, add_zero] at hPasses

/-! ## Blanks, raw strings and comments -/

/-- A blank leads back from a lone slash. -/
theorem passes_blank (hm : m.isCode = true) (hc : c ∈ [' ', '\n']) :
    Passes ⟨m, d⟩ [c] ⟨.code, d⟩ := by
  simp only [List.mem_cons, List.not_mem_nil, or_false] at hc
  refine .char (closesAt_of_ne ?_) ?_
  · rcases hc with rfl | rfl <;> decide
  · rcases hc with rfl | rfl <;> cases m <;>
      simp_all [step, weight, Mode.next, Mode.entered, Mode.isCode]

theorem passes_raw (ht : '\x60' ∉ t) : Passes ⟨.raw, d⟩ t ⟨.raw, d⟩ := by
  refine .stay fun c hc => ⟨closesAt_of_not_isCode rfl, ?_⟩
  have hTick : c ≠ '\x60' := fun hEq => ht (hEq ▸ hc)
  rw [step_of_not_isCode rfl, Mode.next, if_neg hTick]

theorem passes_comment (ht : '\n' ∉ t) : Passes ⟨.comment, d⟩ t ⟨.comment, d⟩ := by
  refine .stay fun c hc => ⟨closesAt_of_not_isCode rfl, ?_⟩
  have hNewline : c ≠ '\n' := fun hEq => ht (hEq ▸ hc)
  rw [step_of_not_isCode rfl, Mode.next, if_neg hNewline]

/-- A raw string is passed, whatever it holds. -/
theorem passes_raw_string (ht : '\x60' ∉ t) :
    Passes ⟨.code, d⟩ ('\x60' :: t ++ ['\x60']) ⟨.code, d⟩ := by
  have hOpen : step ⟨.code, d⟩ '\x60' = ⟨.raw, d⟩ := by
    simp [step, weight, Mode.next, Mode.entered]
  have hClose : step ⟨.raw, d⟩ '\x60' = ⟨.code, d⟩ := step_of_not_isCode rfl
  exact (Text.Passes.cons (closesAt_of_ne (by decide)) hOpen (passes_raw ht)).append
    (.char (closesAt_of_ne (by decide)) hClose)

/-- A comment is passed up to the end of its line, whatever it holds, -/
theorem passes_open_comment (ht : '\n' ∉ t) :
    Passes ⟨.code, d⟩ ('/' :: '/' :: t) ⟨.comment, d⟩ := by
  have hFirst : step ⟨.code, d⟩ '/' = ⟨.slash, d⟩ := by
    simp [step, weight, Mode.next, Mode.entered]
  have hSecond : step ⟨.slash, d⟩ '/' = ⟨.comment, d⟩ := by
    simp [step, weight, Mode.next]
  exact .cons (closesAt_of_ne (by decide)) hFirst
    (.cons (closesAt_of_ne (by decide)) hSecond (passes_comment ht))

/-- and with the line feed that ends it. -/
theorem passes_line_comment (ht : '\n' ∉ t) :
    Passes ⟨.code, d⟩ ('/' :: '/' :: t ++ ['\n']) ⟨.code, d⟩ :=
  (passes_open_comment ht).append
    (.char (closesAt_of_ne (by decide)) (step_of_not_isCode rfl))

/-! ## Before the end -/

/-- A character that does not end the search leaves a brace open. -/
theorem depth_step_pos (hDepth : 0 < s.depth) (hc : s.closesAt c = false) :
    0 < (s.step c).depth := by
  change 0 < s.depth + s.weight c
  by_cases hCode : s.mode.isCode = true
  · by_cases hClose : c = '}'
    · -- it closes a brace, but not the last one
      have hNotLast : s.depth ≠ 1 := by
        rintro hLast
        simp [closesAt, hCode, hClose, hLast] at hc
      have hWeight : s.weight c = -1 := by
        simp [weight, hCode, hClose]
      omega
    · have hWeight : 0 ≤ s.weight c := by
        rw [weight, if_pos hCode, if_neg hClose]
        split <;> decide
      omega
  · have hWeight : s.weight c = 0 := by
      rw [weight, if_neg hCode]
    omega

/-- Along a text that does not end the search, some brace is open. -/
theorem depth_run_pos (hDepth : 0 < s.depth) (hOpen : s.closing? t = none) (hp : p <+: t) :
    0 < (s.run p).depth := by
  -- the state moves on with every character, so the induction is over all states
  induction t generalizing s p with
  | nil =>
    rw [List.prefix_nil.mp hp]
    exact hDepth
  | cons c t ih =>
    rcases List.prefix_cons_iff.mp hp with rfl | ⟨q, rfl, hq⟩
    · exact hDepth
    · rw [closing?] at hOpen
      split at hOpen
      · simp at hOpen
      · next hc =>
        rw [Option.map_eq_none_iff] at hOpen
        rw [run_cons]
        exact ih (depth_step_pos hDepth (Bool.eq_false_of_not_eq_true hc)) hOpen hq

end FieldHint.Brace.Scan

/-! ## Bodies -/

namespace FieldHint.Brace

variable {t body : Text} {n : Nat}

/-- A text that the brace right behind it closes, where a brace is open right before it. -/
def IsBody (body : Text) : Prop := bodyEnd? (body ++ ['}']) = some body.length

theorem isBody_iff :
    IsBody body ↔ Scan.closing? ⟨.code, 1⟩ body = none ∧
      (Scan.run ⟨.code, 1⟩ body).closesAt '}' = true := by
  rw [IsBody, bodyEnd?, Scan.closing?_eq_some_iff]
  constructor
  · rintro ⟨a, u, hSplit, hLength, hOpen, hLast⟩
    obtain ⟨rfl, -⟩ := List.append_inj hSplit hLength.symm
    exact ⟨hOpen, hLast⟩
  · rintro ⟨hOpen, hLast⟩
    exact ⟨body, [], rfl, rfl, hOpen, hLast⟩

/-- The search finds bodies. What follows the closing brace has no say. -/
theorem bodyEnd?_eq_some_iff :
    bodyEnd? t = some n ↔ ∃ body rest, t = body ++ '}' :: rest ∧ body.length = n ∧ IsBody body := by
  simp only [bodyEnd?, Scan.closing?_eq_some_iff, isBody_iff]

theorem IsBody.bodyEnd? (h : IsBody body) (rest : Text) :
    Brace.bodyEnd? (body ++ '}' :: rest) = some body.length :=
  bodyEnd?_eq_some_iff.mpr ⟨body, rest, rfl, rfl, h⟩

/-- Behind an opening brace, the search looks for the end of a body. -/
theorem closing?_open (before t : Text) :
    closing? (before ++ '{' :: t) before.length =
      (Brace.bodyEnd? t).map (before.length + 1 + ·) := by
  have hFirst : Scan.closing? {} ('{' :: t) = (Brace.bodyEnd? t).map (· + 1) := rfl
  rw [closing?, List.drop_left, hFirst, Option.map_map]
  congr 1
  funext n
  exact (Nat.add_right_comm before.length 1 n).symm

theorem IsBody.closing? (h : IsBody body) (before rest : Text) :
    Brace.closing? (before ++ '{' :: (body ++ '}' :: rest)) before.length =
      some (before.length + 1 + body.length) := by
  rw [closing?_open, h.bodyEnd?, Option.map_some]

/-- So what it finds is the end of one. -/
theorem closing?_of_open {text : Text} {o n : Nat} (hOpen : text[o]? = some '{')
    (hClose : closing? text o = some n) :
    ∃ rest, text.drop (o + 1) = Text.slice text (o + 1) n ++ '}' :: rest ∧
      IsBody (Text.slice text (o + 1) n) := by
  obtain ⟨hLength, hBrace⟩ := List.getElem?_eq_some_iff.mp hOpen
  have hTake : (text.take o).length = o := List.length_take_of_le hLength.le
  have hText : text = text.take o ++ '{' :: text.drop (o + 1) := by
    rw [← hBrace, ← List.drop_eq_getElem_cons hLength, List.take_append_drop]
  have hFound := closing?_open (text.take o) (text.drop (o + 1))
  rw [← hText, hTake, hClose] at hFound
  obtain ⟨m, hm, rfl⟩ := Option.map_eq_some_iff.mp hFound.symm
  obtain ⟨body, rest, hSplit, rfl, hBody⟩ := bodyEnd?_eq_some_iff.mp hm
  have hSlice : Text.slice text (o + 1) (o + 1 + body.length) = body := by
    rw [Text.slice, List.drop_take, hSplit, Nat.add_sub_cancel_left, List.take_left]
  rw [hSlice]
  exact ⟨rest, hSplit, hBody⟩

/-! ## Spans -/

/-- A text that the brace right behind it closes, where no brace is open in front of the text. -/
def IsSpan (span : Text) : Prop :=
  Scan.closing? {} span = none ∧ (Scan.run {} span).closesAt '}' = true

variable {text span : Text} {o c : Nat}

/-- No brace is open yet where a search starts, so it does not end there. -/
theorem IsSpan.ne_nil (h : IsSpan span) : span ≠ [] := by
  rintro rfl
  exact absurd h.2 (by decide)

/-- The search from an offset finds the end of a span. Neither what stands in front of the offset
nor what follows the span has a say. -/
theorem closing?_eq_some_iff_isSpan :
    closing? text o = some c ↔
      ∃ span rest, text.drop o = span ++ '}' :: rest ∧ c = o + span.length ∧ IsSpan span := by
  rw [closing?, Option.map_eq_some_iff]
  constructor
  · rintro ⟨n, hn, rfl⟩
    obtain ⟨span, rest, hDrop, rfl, hSpan⟩ := Scan.closing?_eq_some_iff.mp hn
    exact ⟨span, rest, hDrop, rfl, hSpan⟩
  · rintro ⟨span, rest, hDrop, rfl, hSpan⟩
    have hFound := Scan.closing?_eq_some_iff.mpr ⟨span, rest, hDrop, rfl, hSpan⟩
    exact ⟨span.length, hFound, rfl⟩

/-- A search moves on, and ends at a brace. -/
theorem closing?_bounds (h : closing? text o = some c) : o < c ∧ text[c]? = some '}' := by
  obtain ⟨span, rest, hDrop, rfl, hSpan⟩ := closing?_eq_some_iff_isSpan.mp h
  constructor
  · -- the brace found is not the character that the search starts with
    have hPos := List.length_pos_iff.mpr hSpan.ne_nil
    omega
  · rw [← List.getElem?_drop, hDrop, List.getElem?_append_right le_rfl, Nat.sub_self,
      List.getElem?_cons_zero]

/-- What a search finds depends on the span alone that it reads, from its start up to the brace that
it finds: the span may be put between any two texts, and its last brace is found there, too. -/
theorem closing?_slice (h : closing? text o = some c) :
    text[c]? = some '}' ∧ o < c ∧ ∀ before after,
      closing? (before ++ (text.slice o (c + 1) ++ after)) before.length =
        some (before.length + (c - o)) := by
  obtain ⟨hLater, hBrace⟩ := closing?_bounds h
  refine ⟨hBrace, hLater, ?_⟩
  intro before after
  obtain ⟨span, rest, hDrop, rfl, hSpan⟩ := closing?_eq_some_iff_isSpan.mp h
  have hSlice : text.slice o (o + span.length + 1) = span ++ ['}'] := by
    have hLength : o + span.length + 1 - o = (span ++ ['}']).length := by
      rw [List.length_append, List.length_singleton]
      omega
    have hSplit : span ++ '}' :: rest = span ++ ['}'] ++ rest := by simp
    rw [Text.slice, List.drop_take, hDrop, hLength, hSplit, List.take_left]
  -- the same span is read at its new place
  refine closing?_eq_some_iff_isSpan.mpr ⟨span, after, ?_, by omega, hSpan⟩
  rw [hSlice, List.drop_left, List.append_assoc, List.singleton_append]

/-- A brace pair that holds braces in a quoted string, in a comment and in a raw string, between a
quote and a backtick that would hide it if they were read. -/
def hedgedPair : Text :=
  '"' :: '\\' :: ['{', '"', '\\', '"', '}', '"', '/', '/', '}', '\n', '\x60', '{', '\x60', '}'] ++
    ['\x60', '}']

/-- The theorem at that pair, which is put behind a backtick. -/
theorem closing?_slice_hedged :
    closing? hedgedPair 2 = some 15 ∧ hedgedPair[15]? = some '}' ∧
      closing? ('\x60' :: (hedgedPair.slice 2 16 ++ ['}'])) 1 = some 14 := by
  have hFound : closing? hedgedPair 2 = some 15 := by decide
  obtain ⟨hBrace, -, hMoved⟩ := closing?_slice hFound
  exact ⟨hFound, hBrace, hMoved ['\x60'] ['}']⟩

end FieldHint.Brace
