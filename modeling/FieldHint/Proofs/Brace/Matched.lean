import FieldHint.Proofs.Brace.Code

/-!
# Braces — which brace closes another

The search for a closing brace finds the brace that balances the opening one, where braces in
strings and comments are no braces. What may stand between the two is `Matched`: code in the sense
of the grammar, whose strings may go over lines and whose comments are those that end with their
line.

* `Code.isBody` — a brace right behind such text is the one that is found;
* `IsBody.matched` — what stands in front of a brace that is found is such text;
* `closing?_eq_some_iff_matched` — so the search finds the balancing brace, and no other.

The way back takes the text piece by piece: the search passes a piece and comes out as it went in,
so the piece is no matter for what follows it (`IsBody.append_iff`).
-/

namespace FieldHint.Brace

/-- What stands between a brace and the one that balances it. -/
abbrev Matched (t : Text) : Prop := Code true false t

variable {t u : Text} {n : Nat}

/-! ## Pieces of a body -/

namespace Scan

/-- A quoted string that has no end is not left. -/
theorem isCode_run_quoted (ht : Text.Escaped ['"', '\n'] t) (hu : u = [] ∨ u = ['\\']) (d : Int) :
    (run ⟨.quoted, d⟩ (t ++ u)).mode.isCode = false := by
  rw [run_append, (passes_in_quotes ht).run_eq]
  rcases hu with rfl | rfl <;> rfl

theorem step_deeper (s : Scan) (c : Char) :
    step ⟨s.mode, s.depth + 1⟩ c = ⟨(s.step c).mode, (s.step c).depth + 1⟩ := by
  rw [step]
  congr 1
  exact add_right_comm s.depth 1 (s.weight c)

/-- One more brace that is open in front of a text is still open behind it. -/
theorem run_deeper (s : Scan) (t : Text) :
    run ⟨s.mode, s.depth + 1⟩ t = ⟨(s.run t).mode, (s.run t).depth + 1⟩ := by
  induction t generalizing s with
  | nil => rfl
  | cons c t ih =>
    rw [run_cons, run_cons, step_deeper]
    exact ih (s.step c)

/-- Where one more brace is open, a text that is passed inside a brace is passed, too. -/
theorem Passes.deeper {s s' : Scan} (h : Passes s t s') (hDepth : 0 < s.depth) :
    Passes ⟨s.mode, s.depth + 1⟩ t ⟨s'.mode, s'.depth + 1⟩ := by
  induction h with
  | nil => exact .nil
  | @cons s _ _ c _ hc hStep _ ih =>
    subst hStep
    -- without that brace too, some brace is open, so the last one is not closed here
    have hNotLast : ¬ s.depth + 1 = 1 := by omega
    have hOpen : closesAt ⟨s.mode, s.depth + 1⟩ c = false := by simp [closesAt, hNotLast]
    exact .cons hOpen (step_deeper s c) (ih (depth_step_pos hDepth hc))

end Scan

open Scan

namespace IsBody

/-- A piece that the search passes is no matter for what follows it. -/
theorem append_iff (ht : Passes ⟨.code, 1⟩ t ⟨.code, 1⟩) : IsBody (t ++ u) ↔ IsBody u := by
  rw [isBody_iff, isBody_iff, ht.closing?_append, Option.map_eq_none_iff, run_append, ht.run_eq]

/-- Nor is a slash that opens no comment. -/
theorem slash_iff (hNext : t.head? ≠ some '/') : IsBody ('/' :: t) ↔ IsBody t := by
  have hFirst : step ⟨.code, 1⟩ '/' = ⟨.slash, 1⟩ := by decide
  rw [isBody_iff, isBody_iff, Scan.closing?, if_neg (by decide), Option.map_eq_none_iff, run_cons,
    hFirst]
  cases t with
  | nil => decide
  | cons c t =>
    -- the character behind the slash is read as it is without the slash
    have hStep : step ⟨.slash, 1⟩ c = step ⟨.code, 1⟩ c := step_slash (by simpa using hNext)
    have hCloses : closesAt ⟨.slash, 1⟩ c = closesAt ⟨.code, 1⟩ c := rfl
    rw [Scan.closing?, Scan.closing?, run_cons, run_cons, hStep, hCloses]

/-- The brace behind a body is read in code. -/
theorem isCode (h : IsBody t) : (run ⟨.code, 1⟩ t).mode.isCode = true := by
  obtain ⟨-, hLast⟩ := isBody_iff.mp h
  simp only [closesAt, Bool.and_eq_true] at hLast
  exact hLast.1.1

theorem depth_eq (h : IsBody t) : (run ⟨.code, 1⟩ t).depth = 1 := by
  obtain ⟨-, hLast⟩ := isBody_iff.mp h
  simp only [closesAt, Bool.and_eq_true, decide_eq_true_eq] at hLast
  exact hLast.2

/-- Where one more brace is open, the search passes a body, too. -/
theorem passes_deeper (h : IsBody t) : ∃ m, m.isCode = true ∧ Passes ⟨.code, 2⟩ t ⟨m, 2⟩ := by
  have hPasses : Passes ⟨.code, 1⟩ t (run ⟨.code, 1⟩ t) :=
    passes_of_unclosed (isBody_iff.mp h).1
  have hDeeper := hPasses.deeper one_pos
  rw [h.depth_eq] at hDeeper
  exact ⟨_, h.isCode, hDeeper⟩

/-- A pair of braces around a body is a piece. -/
theorem passes_braces (h : IsBody t) : Passes ⟨.code, 1⟩ ('{' :: t ++ ['}']) ⟨.code, 1⟩ := by
  obtain ⟨m, hm, hInside⟩ := h.passes_deeper
  have hOpen : step ⟨.code, 1⟩ '{' = ⟨.code, 2⟩ := by decide
  have hClose : Reads true ⟨m, 2⟩ ['}'] ⟨.code, 1⟩ := reads_close hm one_pos
  exact (Text.Passes.cons (by decide) hOpen hInside).append hClose.passes

end IsBody

/-! ## What is found is matched -/

namespace IsBody

/-- A quoted string that a body starts with ends in it, -/
theorem exists_quoted (h : IsBody ('"' :: t)) :
    ∃ s x u, t = s ++ x :: u ∧ Text.Escaped ['"', '\n'] s ∧ x ∈ ['"', '\n'] ∧ IsBody u := by
  have hCode : (run ⟨.quoted, 1⟩ t).mode.isCode = true := h.isCode
  cases Text.quoted_all ['"', '\n'] t with
  | @ended s u x hs hx =>
    have hSplit : '"' :: (s ++ x :: u) = '"' :: s ++ [x] ++ u := by simp
    rw [hSplit, append_iff (passes_quoted hs hx)] at h
    exact ⟨s, x, u, rfl, hs, hx, h⟩
  | endless hs =>
    rw [← List.append_nil t, isCode_run_quoted hs (Or.inl rfl)] at hCode
    exact absurd hCode Bool.false_ne_true
  | broken hs =>
    rw [isCode_run_quoted hs (Or.inr rfl)] at hCode
    exact absurd hCode Bool.false_ne_true

/-- and so does a raw string, -/
theorem exists_raw (h : IsBody ('\x60' :: t)) :
    ∃ s u, t = s ++ '\x60' :: u ∧ '\x60' ∉ s ∧ IsBody u := by
  by_cases hTick : '\x60' ∈ t
  · obtain ⟨s, u, rfl, hs⟩ := List.eq_append_cons_of_mem hTick
    have hSplit : '\x60' :: (s ++ '\x60' :: u) = '\x60' :: s ++ ['\x60'] ++ u := by simp
    rw [hSplit, append_iff (passes_raw_string hs)] at h
    exact ⟨s, u, rfl, hs, h⟩
  · have hCode : (run ⟨.raw, 1⟩ t).mode.isCode = true := h.isCode
    rw [(passes_raw hTick).run_eq] at hCode
    exact absurd hCode Bool.false_ne_true

/-- a comment, -/
theorem exists_comment (h : IsBody ('/' :: '/' :: t)) :
    ∃ s u, t = s ++ '\n' :: u ∧ '\n' ∉ s ∧ IsBody u := by
  by_cases hFeed : '\n' ∈ t
  · obtain ⟨s, u, rfl, hs⟩ := List.eq_append_cons_of_mem hFeed
    have hSplit : '/' :: '/' :: (s ++ '\n' :: u) = '/' :: '/' :: s ++ ['\n'] ++ u := by simp
    rw [hSplit, append_iff (passes_line_comment hs)] at h
    exact ⟨s, u, rfl, hs, h⟩
  · have hCode : (run ⟨.comment, 1⟩ t).mode.isCode = true := h.isCode
    rw [(passes_comment hFeed).run_eq] at hCode
    exact absurd hCode Bool.false_ne_true

/-- and a pair of braces. -/
theorem exists_braces (h : IsBody ('{' :: t)) :
    ∃ s u, t = s ++ '}' :: u ∧ IsBody s ∧ IsBody u := by
  cases hEnd : Brace.bodyEnd? t with
  | none =>
    -- without its partner, the first brace would still be open at the end
    have hPos := depth_run_pos (s := ⟨.code, 1⟩) (by decide) hEnd List.prefix_rfl
    have hDeeper : run ⟨.code, 1⟩ ('{' :: t) = _ := run_deeper ⟨.code, 1⟩ t
    have hDepth := h.depth_eq
    rw [hDeeper] at hDepth
    dsimp only at hDepth
    omega
  | some n =>
    obtain ⟨s, u, rfl, -, hs⟩ := bodyEnd?_eq_some_iff.mp hEnd
    have hSplit : '{' :: (s ++ '}' :: u) = '{' :: s ++ ['}'] ++ u := by simp
    rw [hSplit, append_iff hs.passes_braces] at h
    exact ⟨s, u, rfl, hs, h⟩

/-- What stands in front of the brace that the search finds is matched. -/
theorem matched (h : IsBody t) : Matched t := by
  -- each piece leaves a shorter body behind it, and a pair of braces one inside
  induction hn : t.length using Nat.strong_induction_on generalizing t with
  | _ n ih =>
    have shorter : ∀ {u : Text}, u.length < t.length → IsBody u → Matched u :=
      fun hu hBody => ih _ (hn ▸ hu) hBody rfl
    -- a string may go over several lines
    have hSpans : ∀ {s : Text}, true = false → '\n' ∉ s := fun h => absurd h Bool.false_ne_true.symm
    rcases t with _ | ⟨c, t⟩
    · exact .nil
    by_cases hPlain : c ∉ ['{', '}', '"', '\x60', '/']
    · have hReads : Reads true ⟨.code, 1⟩ [c] ⟨.code, 1⟩ := reads_plain hPlain
      exact .plain hPlain (shorter (by grind) ((append_iff hReads.passes).mp h))
    simp only [not_not, List.mem_cons, List.not_mem_nil, or_false] at hPlain
    rcases hPlain with rfl | rfl | rfl | rfl | rfl
    · obtain ⟨s, u, rfl, hs, hu⟩ := h.exists_braces
      exact .braces (shorter (by grind) hs) (shorter (by grind) hu)
    · -- a body does not start with its own closing brace
      have hOpen := (isBody_iff.mp h).1
      rw [Scan.closing?, if_pos (by decide)] at hOpen
      exact absurd hOpen (by simp)
    · obtain ⟨s, x, u, rfl, hs, hx, hu⟩ := h.exists_quoted
      rw [List.mem_cons, List.mem_singleton] at hx
      rcases hx with rfl | rfl
      · exact .interpreted hs hSpans (shorter (by grind) hu)
      · exact .unterminated hs hSpans (shorter (by grind) hu)
    · obtain ⟨s, u, rfl, hs, hu⟩ := h.exists_raw
      exact .raw hs hSpans (shorter (by grind) hu)
    · by_cases hNext : t.head? = some '/'
      · obtain ⟨t, rfl⟩ := List.head?_eq_some_iff.mp hNext
        obtain ⟨s, u, rfl, hs, hu⟩ := h.exists_comment
        exact .comment hs (shorter (by grind) hu)
      · have hRest : Matched t := shorter (by grind) ((slash_iff hNext).mp h)
        exact .slash hNext (fun h => absurd h Bool.false_ne_true) hRest

end IsBody

/-! ## The balancing brace -/

/-- The search from an opening brace finds the brace that balances it, whatever stands in front of
the two and whatever follows them; and where it finds a brace, the text between is matched. -/
theorem closing?_eq_some_iff_matched {before : Text} :
    closing? (before ++ '{' :: t) before.length = some n ↔
      ∃ w after, t = w ++ '}' :: after ∧ Matched w ∧ n = (before ++ '{' :: w).length := by
  rw [closing?_open, Option.map_eq_some_iff]
  constructor
  · rintro ⟨k, hk, rfl⟩
    obtain ⟨w, after, rfl, rfl, hBody⟩ := bodyEnd?_eq_some_iff.mp hk
    exact ⟨w, after, rfl, hBody.matched, by grind⟩
  · rintro ⟨w, after, rfl, hw, rfl⟩
    exact ⟨w.length, hw.isBody.bodyEnd? after, by grind⟩

end FieldHint.Brace
