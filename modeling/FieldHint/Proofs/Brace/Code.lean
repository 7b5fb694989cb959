import FieldHint.Proofs.Brace.Span
import FieldHint.Proofs.Text.Escaped

/-!
# Braces — code with strings and comments

What may stand between a brace and the one that closes it, as a grammar over characters that knows
nothing of the search: plain characters, quoted strings, raw strings, comments, and further pairs of
braces, to any depth. Strings and comments may hold any braces, and the delimiters of each other.

* `Code.reads` — the search for the closing brace passes such text, to any depth, and if no raw
  string spans lines, it is in code at the start of each line;
* `Code.isBody` — so the brace right behind it is the one that is found;
* `Code.not_opens_last_line` — and the line that the brace stands on is no comment.

The search knows comments that end with their line. The grammar may have block comments, too
(`blocks`), but of such text nothing of this holds. Where strings may go over lines (`spanning`) and
block comments are none, the grammar describes exactly what the search passes; that is the other
direction, and stands apart (`Matched`).
-/

namespace FieldHint.Brace

/-- Code whose braces are balanced outside of strings and comments. Strings may go over several
lines if `spanning` says so, a quoted one behind a backslash at the end of the line; and block
comments are comments if `blocks` does. -/
inductive Code (spanning blocks : Bool) : Text → Prop
  | nil : Code spanning blocks []
  | plain {c : Char} {t : Text} (hc : c ∉ ['{', '}', '"', '\x60', '/'])
      (ht : Code spanning blocks t) : Code spanning blocks (c :: t)
  -- a slash that opens no comment
  | slash {t : Text} (hLine : t.head? ≠ some '/') (hBlock : blocks = true → t.head? ≠ some '*')
      (ht : Code spanning blocks t) : Code spanning blocks ('/' :: t)
  | interpreted {s t : Text} (hs : Text.Escaped ['"', '\n'] s)
      (hLine : spanning = false → '\n' ∉ s) (ht : Code spanning blocks t) :
      Code spanning blocks ('"' :: s ++ '"' :: t)
  -- a string without its closing quote ends with the line
  | unterminated {s t : Text} (hs : Text.Escaped ['"', '\n'] s)
      (hLine : spanning = false → '\n' ∉ s) (ht : Code spanning blocks t) :
      Code spanning blocks ('"' :: s ++ '\n' :: t)
  | raw {s t : Text} (hs : '\x60' ∉ s) (hLine : spanning = false → '\n' ∉ s)
      (ht : Code spanning blocks t) : Code spanning blocks ('\x60' :: s ++ '\x60' :: t)
  | comment {s t : Text} (hs : '\n' ∉ s) (ht : Code spanning blocks t) :
      Code spanning blocks ('/' :: '/' :: s ++ '\n' :: t)
  | block {s t : Text} (hBlocks : blocks = true) (hs : ¬ ['*', '/'] <:+: s)
      (ht : Code spanning blocks t) : Code spanning blocks ('/' :: '*' :: s ++ '*' :: '/' :: t)
  | braces {s t : Text} (hs : Code spanning blocks s) (ht : Code spanning blocks t) :
      Code spanning blocks ('{' :: s ++ '}' :: t)

namespace Scan

variable {s s' s'' : Scan} {t u : Text} {c : Char} {d : Int} {m : Mode} {spanning : Bool}

/-! ## Starts of lines -/

/-- The search is in code at the start of each line of the text after its first. -/
def Fresh (s : Scan) (t : Text) : Prop :=
  ∀ p, p ++ ['\n'] <+: t → (s.run (p ++ ['\n'])).mode = .code

theorem Fresh.append (ht : s.Fresh t) (hu : (s.run t).Fresh u) : s.Fresh (t ++ u) := by
  intro p hp
  rcases Text.prefix_append_cases hp with hp | ⟨r, hr, hPrefix⟩
  · exact ht p hp
  · -- the line feed is the last of the first text, or it stands in the second
    rcases List.eq_nil_or_concat r with rfl | ⟨q, c, rfl⟩
    · exact ht p (by rw [hr, List.append_nil])
    · rw [List.concat_eq_append, ← List.append_assoc] at hr
      obtain ⟨rfl, hEnd⟩ := List.append_inj' hr rfl
      obtain rfl : '\n' = c := by simpa using hEnd
      rw [List.append_assoc, run_append]
      exact hu q (by simpa using hPrefix)

theorem Fresh.of_no_newline (ht : '\n' ∉ t) : s.Fresh t :=
  fun p hp => absurd (hp.subset (by simp)) ht

/-- The search reads a text without ending in it, and unless raw strings may span lines, it is in
code at the start of each line. -/
structure Reads (spanning : Bool) (s : Scan) (t : Text) (s' : Scan) : Prop where
  passes : Passes s t s'
  fresh : spanning = false → s.Fresh t

namespace Reads

theorem nil : Reads spanning s [] s := ⟨.nil, fun _ => .of_no_newline (by simp)⟩

theorem append (ht : Reads spanning s t s') (hu : Reads spanning s' u s'') :
    Reads spanning s (t ++ u) s'' :=
  ⟨ht.passes.append hu.passes,
    fun h => (ht.fresh h).append (by rw [ht.passes.run_eq]; exact hu.fresh h)⟩

theorem of_no_newline (h : Passes s t s') (ht : spanning = false → '\n' ∉ t) :
    Reads spanning s t s' :=
  ⟨h, fun hSpanning => .of_no_newline (ht hSpanning)⟩

theorem char (hc : s.closesAt c = false) (hStep : s.step c = s') (hLine : c ≠ '\n') :
    Reads spanning s [c] s' :=
  of_no_newline (.char hc hStep) fun _ => by simpa using hLine.symm

/-- A line feed leads back to code, unless it is escaped or stands in a raw string. -/
theorem newline (hm : m ≠ .raw) (hEscape : m ≠ .quotedEscape) :
    Reads spanning ⟨m, d⟩ ['\n'] ⟨.code, d⟩ := by
  have hStep : step ⟨m, d⟩ '\n' = ⟨.code, d⟩ := by
    cases m <;> simp_all [step, weight, Mode.next, Mode.entered, Mode.isCode]
  refine ⟨.char (closesAt_of_ne (by decide)) hStep, fun _ => ?_⟩
  intro p hp
  obtain rfl : p = [] := by
    have := hp.length_le
    rw [List.length_append] at this
    exact List.length_eq_zero_iff.mp (by simpa using this)
  show (step ⟨m, d⟩ '\n').mode = .code
  rw [hStep]

end Reads

/-! ## Behind a slash -/

/-- Behind a slash, any character but a second one is read as in code. -/
theorem step_slash (hc : c ≠ '/') : step ⟨.slash, d⟩ c = step ⟨.code, d⟩ c := by
  simp [step, weight, Mode.next, Mode.isCode, hc]

theorem Reads.of_slash (h : Reads spanning ⟨.code, d⟩ t s') (hne : t ≠ [])
    (hHead : t.head? ≠ some '/') : Reads spanning ⟨.slash, d⟩ t s' := by
  obtain ⟨c, t, rfl⟩ := List.exists_cons_of_ne_nil hne
  have hStep : step ⟨.slash, d⟩ c = step ⟨.code, d⟩ c := step_slash (by simpa using hHead)
  refine ⟨?_, fun hSpanning p hp => ?_⟩
  · -- the brace that ends the search is the same in both modes
    cases h.passes with
    | cons hc hNext ht => exact .cons hc (hStep.trans hNext) ht
  · have hFresh := h.fresh hSpanning p hp
    -- the first character of the prefix is that of the text
    obtain ⟨x, q, hq⟩ := List.exists_cons_of_ne_nil (l := p ++ ['\n']) (by simp)
    rw [hq] at hp hFresh ⊢
    obtain ⟨rfl, -⟩ := List.cons_prefix_cons.mp hp
    rw [run_cons] at hFresh ⊢
    rwa [hStep]

/-! ## Strings -/

theorem passes_in_quotes {s : Text} (hs : Text.Escaped ['"', '\n'] s) :
    Passes ⟨.quoted, d⟩ s ⟨.quoted, d⟩ := by
  induction hs with
  | nil => exact .nil
  | char hc hBackslash _ ih =>
    simp only [List.mem_cons, List.not_mem_nil, or_false] at hc
    refine .cons (closesAt_of_not_isCode rfl) ?_ ih
    rw [step_of_not_isCode rfl, Mode.next, if_neg hc, if_neg hBackslash]
  | escape _ ih =>
    -- the backslash takes any character with it, also a quote or another backslash
    have hEscape : step ⟨.quoted, d⟩ '\\' = ⟨.quotedEscape, d⟩ := step_of_not_isCode rfl
    exact .cons (closesAt_of_not_isCode rfl) hEscape
      (.cons (closesAt_of_not_isCode rfl) (step_of_not_isCode rfl) ih)

/-- A quoted string in front of its end. -/
theorem passes_open_quotes {s : Text} (hs : Text.Escaped ['"', '\n'] s) :
    Passes ⟨.code, d⟩ ('"' :: s) ⟨.quoted, d⟩ := by
  have hOpen : step ⟨.code, d⟩ '"' = ⟨.quoted, d⟩ := by
    simp [step, weight, Mode.next, Mode.entered]
  exact .cons (closesAt_of_ne (by decide)) hOpen (passes_in_quotes hs)

/-- A quoted string up to the quote or the line feed that ends it. -/
theorem passes_quoted {s : Text} {x : Char} (hs : Text.Escaped ['"', '\n'] s)
    (hx : x ∈ ['"', '\n']) : Passes ⟨.code, d⟩ ('"' :: s ++ [x]) ⟨.code, d⟩ := by
  have hClose : step ⟨.quoted, d⟩ x = ⟨.code, d⟩ := by
    rw [step_of_not_isCode rfl, Mode.next, if_pos (by simpa using hx)]
  exact (passes_open_quotes hs).append (.char (closesAt_of_not_isCode rfl) hClose)

theorem reads_quotes {s : Text} (hs : Text.Escaped ['"', '\n'] s)
    (hLine : spanning = false → '\n' ∉ s) : Reads spanning ⟨.code, d⟩ ('"' :: s) ⟨.quoted, d⟩ :=
  .of_no_newline (passes_open_quotes hs) fun hSpanning => by simpa using hLine hSpanning

/-! ## Single characters of code -/

theorem step_plain (hc : c ∉ ['{', '}', '"', '\x60', '/']) : step ⟨.code, d⟩ c = ⟨.code, d⟩ := by
  simp only [List.mem_cons, List.not_mem_nil, or_false, not_or] at hc
  obtain ⟨hOpen, hClose, hQuote, hTick, hSlash⟩ := hc
  simp [step, weight, Mode.next, Mode.entered, hOpen, hClose, hQuote, hTick, hSlash]

theorem reads_plain (hc : c ∉ ['{', '}', '"', '\x60', '/']) :
    Reads spanning ⟨.code, d⟩ [c] ⟨.code, d⟩ := by
  by_cases hLine : c = '\n'
  · subst hLine
    exact .newline (by decide) (by decide)
  · refine .char (closesAt_of_ne ?_) (step_plain hc) hLine
    rintro rfl
    simp at hc

theorem reads_slash : Reads spanning ⟨.code, d⟩ ['/'] ⟨.slash, d⟩ := by
  refine .char (closesAt_of_ne (by decide)) ?_ (by decide)
  simp [step, weight, Mode.next, Mode.entered]

theorem reads_open : Reads spanning ⟨.code, d⟩ ['{'] ⟨.code, d + 1⟩ := by
  refine .char (closesAt_of_ne (by decide)) ?_ (by decide)
  simp [step, weight, Mode.next, Mode.entered, Mode.isCode]

/-- A brace that is not the last open one is closed like any other character is read. -/
theorem reads_close (hm : m.isCode = true) (hd : 0 < d) :
    Reads spanning ⟨m, d + 1⟩ ['}'] ⟨.code, d⟩ := by
  refine .char ?_ ?_ (by decide)
  · have hNotLast : ¬ d + 1 = 1 := by omega
    simp [closesAt, hNotLast]
  · cases m <;> simp_all [step, weight, Mode.next, Mode.entered, Mode.isCode]

/-- Behind blanks the search is in code, and two slashes would open a comment that goes on to the
end of the line. -/
theorem not_opens_of_isCode (hLine : '\n' ∉ t) (hCode : (run ⟨.code, d⟩ t).mode.isCode = true) :
    Comment.opens (Text.stripStart t) = false := by
  obtain ⟨pad, u, rfl, hPad, hu⟩ := Text.exists_run Text.isBlank t
  rw [Text.stripStart, Text.dropWhile_run hPad hu]
  by_contra hOpens
  obtain ⟨said, rfl⟩ := List.isPrefixOf_iff_prefix.mp (Bool.eq_true_of_not_eq_false hOpens)
  have hNot : ∀ {x : Char}, Text.isBlank x = false → x ∉ pad :=
    fun hx => Text.not_mem_of_class hPad hx
  have hBare : Bare pad := ⟨hNot (by decide), hNot (by decide),
    Text.not_infix_of_not_mem (x := '/') (by decide) (hNot (by decide))⟩
  have hEnd : Text.endMode pad = Mode.code := Text.endMode_of_not_mem (hNot (by decide))
  have hSaid : '\n' ∉ said := fun h => hLine (by simp [h])
  rw [run_append, run_bare hBare, hEnd] at hCode
  change (run ⟨.code, _⟩ ('/' :: '/' :: said)).mode.isCode = true at hCode
  rw [(passes_open_comment hSaid).run_eq] at hCode
  exact Bool.false_ne_true hCode

end Scan

namespace Code

variable {spanning : Bool} {t a b : Text} {d : Int}

open Scan

/-- Plain characters may stand in front of code. -/
theorem append_plain {blocks : Bool} {s : Text} (hs : ∀ c ∈ s, c ∉ ['{', '}', '"', '\x60', '/'])
    (ht : Code spanning blocks t) : Code spanning blocks (s ++ t) := by
  induction s with
  | nil => exact ht
  | cons c s ih =>
    rw [List.forall_mem_cons] at hs
    exact .plain hs.1 (ih hs.2)

/-- The search passes code to any depth, and comes out in code. -/
theorem reads (h : Code spanning false t) (hd : 0 < d) :
    ∃ m, m.isCode = true ∧ Reads spanning ⟨.code, d⟩ t ⟨m, d⟩ := by
  induction h generalizing d with
  | nil => exact ⟨.code, rfl, .nil⟩
  | plain hc _ ih =>
    obtain ⟨m, hm, hRest⟩ := ih hd
    exact ⟨m, hm, (reads_plain hc).append hRest⟩
  | @slash t hLine _ _ ih =>
    -- the slash may be the last character, or be followed by one that makes it plain code
    obtain ⟨m, hm, hRest⟩ := ih hd
    by_cases hEnd : t = []
    · subst hEnd
      exact ⟨.slash, rfl, reads_slash⟩
    · exact ⟨m, hm, reads_slash.append (hRest.of_slash hEnd hLine)⟩
  | interpreted hs hLine _ ih =>
    obtain ⟨m, hm, hRest⟩ := ih hd
    have hClose : Reads spanning ⟨.quoted, d⟩ ['"'] ⟨.code, d⟩ :=
      .char (closesAt_of_ne (by decide)) (step_of_not_isCode rfl) (by decide)
    exact ⟨m, hm, (reads_quotes hs hLine).append (hClose.append hRest)⟩
  | unterminated hs hLine _ ih =>
    obtain ⟨m, hm, hRest⟩ := ih hd
    exact ⟨m, hm, (reads_quotes hs hLine).append
      ((Reads.newline (by decide) (by decide)).append hRest)⟩
  | @raw s t hs hLine _ ih =>
    obtain ⟨m, hm, hRest⟩ := ih hd
    have hString : Reads spanning ⟨.code, d⟩ ('\x60' :: s ++ ['\x60']) ⟨.code, d⟩ :=
      .of_no_newline (passes_raw_string hs) fun hSpanning => by simpa using hLine hSpanning
    have hSplit : '\x60' :: s ++ '\x60' :: t = '\x60' :: s ++ ['\x60'] ++ t := by simp
    rw [hSplit]
    exact ⟨m, hm, hString.append hRest⟩
  | @comment s t hs _ ih =>
    obtain ⟨m, hm, hRest⟩ := ih hd
    have hOpen : Reads spanning ⟨.code, d⟩ ('/' :: '/' :: s) ⟨.comment, d⟩ :=
      .of_no_newline (passes_open_comment hs) fun _ => by simpa using hs
    exact ⟨m, hm, hOpen.append ((Reads.newline (by decide) (by decide)).append hRest)⟩
  | block hBlocks _ _ _ => exact absurd hBlocks (by decide)
  | braces _ _ ihs iht =>
    have hDeeper : 0 < d + 1 := by omega
    obtain ⟨m, hm, hInner⟩ := ihs hDeeper
    obtain ⟨m', hm', hRest⟩ := iht hd
    exact ⟨m', hm', reads_open.append (hInner.append ((reads_close hm hd).append hRest))⟩

/-- The brace right behind code closes the one right before it. -/
theorem isBody (h : Code spanning false t) : IsBody t := by
  obtain ⟨m, hm, hReads⟩ := h.reads one_pos
  refine isBody_iff.mpr ⟨hReads.passes.unclosed, ?_⟩
  rw [hReads.passes.run_eq]
  simp [closesAt, hm]

/-- The last of several lines of code is no comment, since a comment there would go on. -/
theorem not_opens_last_line (h : Code false false (a ++ '\n' :: b)) (hb : '\n' ∉ b) :
    Comment.opens (Text.stripStart b) = false := by
  obtain ⟨m, hm, hReads⟩ := h.reads one_pos
  have hFresh := hReads.fresh rfl a ⟨b, by simp⟩
  have hSplit : a ++ '\n' :: b = a ++ ['\n'] ++ b := by simp
  have hRun := hReads.passes.run_eq
  rw [hSplit, run_append] at hRun
  generalize run ⟨.code, 1⟩ (a ++ ['\n']) = s at hFresh hRun
  obtain ⟨m', d⟩ := s
  obtain rfl : m' = .code := hFresh
  refine not_opens_of_isCode (d := d) hb ?_
  rw [hRun]
  exact hm

end Code

end FieldHint.Brace
