import FieldHint.Proofs.Body.Split
import FieldHint.Proofs.Brace.Span

/-!
# Struct bodies — the split and the search for the closing brace

Two scans read a struct body: the search for its closing brace, and the split into pieces. They
know different things. The search knows quoted strings, which the split does not; a raw string may
span lines in the search, but the split ends it with its line. On a body without either, the two
go in lockstep:

* `Agrees.run` — the same mode, and one more brace open for the search than for the split;
* `chunks_split_iff` — the body is split at the semicolons and line feeds that the search reads
  directly in it.
-/

namespace FieldHint.Body

/-! ## Lockstep -/

/-- The modes in which both scans read the same. -/
inductive SameMode : Brace.Mode → Mode → Prop
  | code : SameMode .code .code
  | slash : SameMode .slash .slash
  | comment : SameMode .comment .comment
  | raw : SameMode .raw .tag

namespace SameMode

variable {m : Brace.Mode} {m' : Mode} {c : Char}

theorem isCode_eq (h : SameMode m m') : m.isCode = m'.isCode := by
  cases h <;> rfl

/-- In code, both scans enter the same, unless it is a quoted string. -/
theorem entered (hc : c ≠ '"') : SameMode (Brace.Mode.entered c) (Mode.entered c) := by
  unfold Brace.Mode.entered Mode.entered
  rw [if_neg hc]
  split
  · exact .raw
  · split
    · exact .slash
    · exact .code

theorem next (h : SameMode m m') (hQuote : c = '"' → m = .raw ∨ m = .comment)
    (hLine : c = '\n' → m ≠ .raw) : SameMode (m.next c) (m'.next c) := by
  cases h with
  | code => exact entered fun hc => by simpa using hQuote hc
  | slash =>
    change SameMode (if c = '/' then _ else _) (if c = '/' then _ else _)
    split
    · exact .comment
    · exact entered fun hc => by simpa using hQuote hc
  | comment =>
    change SameMode (if c = '\n' then _ else _) (if c = '\n' then _ else _)
    split
    · exact .code
    · exact .comment
  | raw =>
    have hFeed : c ≠ '\n' := fun hc => hLine hc rfl
    change SameMode (if c = '\x60' then _ else _) (if c = '\x60' ∨ c = '\n' then _ else _)
    by_cases hTick : c = '\x60'
    · rw [if_pos hTick, if_pos (Or.inl hTick)]
      exact .code
    · rw [if_neg hTick, if_neg (not_or.mpr ⟨hTick, hFeed⟩)]
      exact .raw

end SameMode

/-- The search and the split at the same place in a body: the search has come through the brace
that opens the body, and counts it. -/
structure Agrees (b : Brace.Scan) (s : Scan) : Prop where
  mode : SameMode b.mode s.mode
  depth : b.depth = s.depth + 1

namespace Agrees

variable {b : Brace.Scan} {s : Scan} {t : Text} {c : Char}

/-- The scans part only where a quoted string opens or a raw string goes on to the next line. -/
theorem step (h : Agrees b s) (hQuote : c = '"' → b.mode = .raw ∨ b.mode = .comment)
    (hLine : c = '\n' → b.mode ≠ .raw) : Agrees (b.step c) (s.step c) where
  mode := h.mode.next hQuote hLine
  depth := by
    have hWeight : b.weight c = s.weight c := by
      rw [Brace.Scan.weight, Scan.weight, h.mode.isCode_eq]
    change b.depth + b.weight c = s.depth + s.weight c + 1
    have := h.depth
    omega

/-- The scans stay together over a text in which nothing parts them. -/
theorem run (h : Agrees b s)
    (hQuote : ∀ p, p ++ ['"'] <+: t → (b.run p).mode = .raw ∨ (b.run p).mode = .comment)
    (hLine : ∀ p, p ++ ['\n'] <+: t → (b.run p).mode ≠ .raw) : Agrees (b.run t) (s.run t) := by
  induction t using List.reverseRecOn with
  | nil => exact h
  | append_singleton t c ih =>
    have hPrefix : t <+: t ++ [c] := List.prefix_append t [c]
    have hBefore : Agrees (b.run t) (s.run t) :=
      ih (fun p hp => hQuote p (hp.trans hPrefix)) fun p hp => hLine p (hp.trans hPrefix)
    rw [Brace.Scan.run_append, Scan.run_append]
    refine hBefore.step ?_ ?_
    · rintro rfl
      exact hQuote t List.prefix_rfl
    · rintro rfl
      exact hLine t List.prefix_rfl

end Agrees

/-! ## Where the body is split -/

/-- The search reads the character directly in the body: no other brace is open, and it stands in
no string and no comment. The line feed behind a comment is not part of it. -/
def Directly (b : Brace.Scan) (c : Char) : Prop :=
  b.depth = 1 ∧ (b.mode.isCode = true ∨ b.mode = .comment ∧ c = '\n')

namespace Scan

variable {s : Scan} {t u : Text} {c : Char}

theorem length_consHead {ts : List Text} (h : ts ≠ []) :
    (Text.consHead c ts).length = ts.length := by
  cases ts with
  | nil => exact absurd rfl h
  | cons t ts => rfl

/-- The text before and the text behind share one chunk. -/
theorem length_chunks_append (s : Scan) (t u : Text) :
    (s.chunks (t ++ u)).length + 1 = (s.chunks t).length + ((s.run t).chunks u).length := by
  induction t generalizing s with
  | nil => simp [chunks, run, Nat.add_comm]
  | cons c t ih =>
    rw [List.cons_append, chunks, chunks, run_cons]
    have := ih (s.step c)
    split
    · simp only [List.length_cons]
      omega
    · rw [length_consHead (chunks_ne_nil _ _), length_consHead (chunks_ne_nil _ _)]
      exact this

/-- A character is a separator if the chunks before it and those behind it are all there are. -/
theorem splitsAt_iff_chunks :
    (s.run t).splitsAt c = true ↔
      s.chunks (t ++ c :: u) = s.chunks t ++ ((s.run t).step c).chunks u := by
  constructor
  · intro hc
    exact chunks_append_separator hc u
  · intro hChunks
    by_contra hc
    -- otherwise the last chunk before and the first one behind are one
    have hLength := length_chunks_append s t (c :: u)
    rw [hChunks, chunks, if_neg hc, length_consHead (chunks_ne_nil _ _), List.length_append]
      at hLength
    omega

end Scan

/-- Where both scans agree, the split ends a piece at a separator directly in the body. -/
theorem Agrees.splitsAt_iff {b : Brace.Scan} {s : Scan} {c : Char} (h : Agrees b s)
    (hDepth : 0 < b.depth) (hLine : c = '\n' → b.mode ≠ .raw) :
    s.splitsAt c = true ↔ (c = ';' ∨ c = '\n') ∧ Directly b c := by
  have hSame := h.depth
  have hDepthIff : s.depth ≤ 0 ↔ b.depth = 1 := by omega
  simp only [Scan.splitsAt, Directly, Bool.and_eq_true, Bool.or_eq_true, decide_eq_true_eq,
    hDepthIff, h.mode.isCode_eq]
  constructor
  · rintro ⟨hOne, rfl | ⟨rfl, hCode⟩⟩
    · -- a line feed stands in code or behind a comment
      refine ⟨Or.inr rfl, hOne, ?_⟩
      have hNotRaw := hLine rfl
      obtain ⟨m, d⟩ := b
      obtain ⟨m', d'⟩ := s
      cases h.mode with
      | code => exact Or.inl rfl
      | slash => exact Or.inl rfl
      | comment => exact Or.inr ⟨rfl, rfl⟩
      | raw => exact absurd rfl hNotRaw
    · exact ⟨Or.inl rfl, hOne, Or.inl hCode⟩
  · rintro ⟨rfl | rfl, hOne, hPlace⟩
    · rcases hPlace with hCode | ⟨-, hFeed⟩
      · exact ⟨hOne, Or.inr ⟨rfl, hCode⟩⟩
      · exact absurd hFeed (by decide)
    · exact ⟨hOne, Or.inl rfl⟩

/-- The two scans agree on the body between an opening brace and the one that closes it, if no
quoted string and no raw string of several lines stands in it. To the split, no brace is ever
closed in the body that is not open, and none is left open; and the body falls apart at exactly
the semicolons and line feeds that the search reads directly in it. -/
theorem chunks_split_iff {text : Text} {o n : Nat} (hOpen : text[o]? = some '{')
    (hClose : Brace.closing? text o = some n)
    (hQuote : ∀ p, p ++ ['"'] <+: Text.slice text (o + 1) n →
      (Brace.Scan.run {} ('{' :: p)).mode = .raw ∨ (Brace.Scan.run {} ('{' :: p)).mode = .comment)
    (hLine : ∀ p, p ++ ['\n'] <+: Text.slice text (o + 1) n →
      (Brace.Scan.run {} ('{' :: p)).mode ≠ .raw) :
    (∀ p, p <+: Text.slice text (o + 1) n → 0 ≤ depthAfter p) ∧
      depthAfter (Text.slice text (o + 1) n) = 0 ∧
      ∀ p c q, p ++ c :: q = Text.slice text (o + 1) n →
        (Scan.chunks {} (p ++ c :: q) =
            Scan.chunks {} p ++ Scan.chunks (Scan.run {} (p ++ [c])) q ↔
          (c = ';' ∨ c = '\n') ∧ Directly (Brace.Scan.run {} ('{' :: p)) c) := by
  obtain ⟨rest, -, hBody⟩ := Brace.closing?_of_open hOpen hClose
  generalize Text.slice text (o + 1) n = body at *
  obtain ⟨hUnclosed, hLast⟩ := Brace.isBody_iff.mp hBody
  have hStart : Agrees ⟨.code, 1⟩ {} := ⟨.code, rfl⟩
  -- at every place in the body the scans agree, and the body's own brace is open
  have hAgrees : ∀ p, p <+: body →
      Agrees (Brace.Scan.run {} ('{' :: p)) (Scan.run {} p) := fun p hp =>
    hStart.run (fun q hq => hQuote q (hq.trans hp)) fun q hq => hLine q (hq.trans hp)
  have hPos : ∀ p, p <+: body → 0 < (Brace.Scan.run {} ('{' :: p)).depth := fun p hp =>
    Brace.Scan.depth_run_pos (s := ⟨.code, 1⟩) (by decide) hUnclosed hp
  refine ⟨fun p hp => ?_, ?_, fun p c q hSplit => ?_⟩
  · have hSame := (hAgrees p hp).depth
    have := hPos p hp
    change 0 ≤ (Scan.run {} p).depth
    omega
  · -- the brace behind the body closes the last one that is open
    have hSame := (hAgrees body List.prefix_rfl).depth
    simp only [Brace.Scan.closesAt, Bool.and_eq_true, decide_eq_true_eq] at hLast
    change (Brace.Scan.run ⟨.code, 1⟩ body).depth = _ at hSame
    change (Scan.run {} body).depth = 0
    omega
  · have hp : p <+: body := ⟨c :: q, hSplit⟩
    have hNext : p ++ [c] <+: body := ⟨q, by simpa using hSplit⟩
    rw [Scan.run_append, ← (hAgrees p hp).splitsAt_iff (hPos p hp)]
    · exact Scan.splitsAt_iff_chunks.symm
    · rintro rfl
      exact hLine p hNext

/-- A body with separators, braces and a quote in a comment, in a tag and in an inline type. -/
def nestedBody : Text :=
  ['a', ';', '/', '/', '"', '}', ';', '\n', '\x60', '{', '"', ';', '\x60', '{', 'b', ';', '}']

/-- The theorem at a nested body: of its five separators two stand directly in it. -/
theorem chunks_split_iff_nested :
    (∀ p, p <+: Text.slice ('P' :: '{' :: nestedBody ++ ['}', '}']) 2 19 → 0 ≤ depthAfter p) ∧
      depthAfter (Text.slice ('P' :: '{' :: nestedBody ++ ['}', '}']) 2 19) = 0 ∧
      ∀ p c q, p ++ c :: q = Text.slice ('P' :: '{' :: nestedBody ++ ['}', '}']) 2 19 →
        (Scan.chunks {} (p ++ c :: q) =
            Scan.chunks {} p ++ Scan.chunks (Scan.run {} (p ++ [c])) q ↔
          (c = ';' ∨ c = '\n') ∧ Directly (Brace.Scan.run {} ('{' :: p)) c) := by
  have hSlice : Text.slice ('P' :: '{' :: nestedBody ++ ['}', '}']) 2 19 = nestedBody := by decide
  have hQuote : ∀ p ∈ nestedBody.inits, p ++ ['"'] <+: nestedBody →
      (Brace.Scan.run {} ('{' :: p)).mode = .raw ∨
        (Brace.Scan.run {} ('{' :: p)).mode = .comment := by
    decide
  have hLine : ∀ p ∈ nestedBody.inits, p ++ ['\n'] <+: nestedBody →
      (Brace.Scan.run {} ('{' :: p)).mode ≠ .raw := by
    decide
  refine chunks_split_iff (o := 1) (by decide) (by decide) ?_ ?_
  · rw [hSlice]
    intro p hp
    exact hQuote p (List.mem_inits p _ |>.mpr ((List.prefix_append p _).trans hp)) hp
  · rw [hSlice]
    intro p hp
    exact hLine p (List.mem_inits p _ |>.mpr ((List.prefix_append p _).trans hp)) hp

end FieldHint.Body
