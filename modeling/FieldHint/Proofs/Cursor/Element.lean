import FieldHint.Proofs.Brace.Depth
import FieldHint.Proofs.Text.Escaped

/-!
# Cursor — elements of a literal

What may stand between two commas of a composite literal, as a grammar over characters: plain
characters, interpreted strings with their escapes, raw strings, and groups in brackets of the
three kinds, to any depth. Strings hold no brace, since the search for the open brace does not
know strings.

The two scans of a literal pass such text without a trace:

* `run_silent` — the count of commas comes out as it went in of all text that closes the strings and
  brackets it opens and has no comma outside of them;
* `run_elements` — so it does of complete elements;
* `commas_run_prefix` — also where the text breaks off, no comma of it is counted;
* `Elements.balanced` — its braces are balanced, so the search for the open brace passes it.
-/

namespace FieldHint.Cursor

/-! ## The grammar -/

/-- A character that the scan of a literal takes as it is. -/
def IsPlain (c : Char) : Prop := c ∉ [',', '"', '\x60', '\\', '(', ')', '[', ']', '{', '}']

instance : DecidablePred IsPlain := fun c =>
  inferInstanceAs (Decidable (c ∉ [',', '"', '\x60', '\\', '(', ')', '[', ']', '{', '}']))

/-- The brackets of a group. -/
def IsPair (opening closing : Char) : Prop :=
  (opening, closing) ∈ [('(', ')'), ('[', ']'), ('{', '}')]

instance (opening closing : Char) : Decidable (IsPair opening closing) :=
  inferInstanceAs (Decidable ((opening, closing) ∈ [('(', ')'), ('[', ']'), ('{', '}')]))

/-- What stands between the quotes of an interpreted string. A backslash escapes the character
behind it. -/
inductive Interpreted : Text → Prop
  | nil : Interpreted []
  | char {c : Char} {t : Text} (hc : c ∉ ['"', '\\', '{', '}']) (ht : Interpreted t) :
      Interpreted (c :: t)
  | escape {c : Char} {t : Text} (hc : c ∉ ['{', '}']) (ht : Interpreted t) :
      Interpreted ('\\' :: c :: t)

/-- A run of complete pieces of an element; inside a group there may be commas among them. -/
inductive Elements : (grouped : Bool) → Text → Prop
  | nil {g : Bool} : Elements g []
  | plain {g : Bool} {c : Char} {t : Text} (hc : IsPlain c) (ht : Elements g t) :
      Elements g (c :: t)
  | comma {t : Text} (ht : Elements true t) : Elements true (',' :: t)
  | interpreted {g : Bool} {s t : Text} (hs : Interpreted s) (ht : Elements g t) :
      Elements g ('"' :: s ++ '"' :: t)
  | raw {g : Bool} {s t : Text} (hs : ∀ c ∈ s, c ∉ ['\x60', '{', '}']) (ht : Elements g t) :
      Elements g ('\x60' :: s ++ '\x60' :: t)
  | group {g : Bool} {o c : Char} {s t : Text} (hPair : IsPair o c) (hs : Elements true s)
      (ht : Elements g t) : Elements g (o :: s ++ c :: t)

/-- Text that the count of commas passes over, whatever it is meant to be: code or the contents of
a comment. Unlike in an element, backslashes may escape characters outside of strings, and strings
may hold braces. -/
inductive Silent : (grouped : Bool) → Text → Prop
  | nil {g : Bool} : Silent g []
  | plain {g : Bool} {c : Char} {t : Text} (hc : IsPlain c) (ht : Silent g t) : Silent g (c :: t)
  | escape {g : Bool} {c : Char} {t : Text} (ht : Silent g t) : Silent g ('\\' :: c :: t)
  | comma {t : Text} (ht : Silent true t) : Silent true (',' :: t)
  | interpreted {g : Bool} {s t : Text} (hs : Text.Escaped ['"'] s) (ht : Silent g t) :
      Silent g ('"' :: s ++ '"' :: t)
  | raw {g : Bool} {s t : Text} (hs : '\x60' ∉ s) (ht : Silent g t) :
      Silent g ('\x60' :: s ++ '\x60' :: t)
  | group {g : Bool} {o c : Char} {s t : Text} (hPair : IsPair o c) (hs : Silent true s)
      (ht : Silent g t) : Silent g (o :: s ++ c :: t)

/-- A complete element of a literal. -/
abbrev IsElement (t : Text) : Prop := Elements false t

theorem Interpreted.escaped {t : Text} (h : Interpreted t) : Text.Escaped ['"'] t := by
  induction h with
  | nil => exact .nil
  | char hc _ ih =>
    simp only [List.mem_cons, List.not_mem_nil, or_false, not_or] at hc
    exact .char (by simpa using hc.1) hc.2.1 ih
  | escape _ _ ih => exact .escape ih

/-- Complete pieces of an element are passed over. -/
theorem Elements.silent {g : Bool} {t : Text} (h : Elements g t) : Silent g t := by
  induction h with
  | nil => exact .nil
  | plain hc _ ih => exact .plain hc ih
  | comma _ ih => exact .comma ih
  | interpreted hs _ ih => exact .interpreted hs.escaped ih
  | raw hs _ ih => exact .raw (fun h => by simpa using hs _ h) ih
  | group hPair _ _ ihs iht => exact .group hPair ihs iht

theorem IsPair.opening {o c : Char} (h : IsPair o c) : o ∈ ['(', ')', '[', ']', '{', '}'] := by
  simp only [IsPair, List.mem_cons, Prod.mk.injEq, List.not_mem_nil, or_false] at h
  rcases h with ⟨rfl, rfl⟩ | ⟨rfl, rfl⟩ | ⟨rfl, rfl⟩ <;> decide

theorem IsPair.closing {o c : Char} (h : IsPair o c) : c ∈ ['(', ')', '[', ']', '{', '}'] := by
  simp only [IsPair, List.mem_cons, Prod.mk.injEq, List.not_mem_nil, or_false] at h
  rcases h with ⟨rfl, rfl⟩ | ⟨rfl, rfl⟩ | ⟨rfl, rfl⟩ <;> decide

/-! ## Braces -/

theorem Interpreted.no_brace {t : Text} (h : Interpreted t) : '{' ∉ t ∧ '}' ∉ t := by
  induction h with
  | nil => simp
  | char hc _ ih => simp_all [Ne.symm, eq_comm]
  | escape hc _ ih => simp_all [Ne.symm, eq_comm]

theorem IsPlain.ne_brace {c : Char} (h : IsPlain c) : c ≠ '{' ∧ c ≠ '}' := by
  constructor <;> rintro rfl <;> simp [IsPlain] at h

theorem Elements.balanced {g : Bool} {t : Text} (h : Elements g t) : Brace.Balanced t := by
  induction h with
  | nil => exact .nil
  | plain hc _ ih => exact .cons hc.ne_brace.1 hc.ne_brace.2 ih
  | comma _ ih => exact .cons (by decide) (by decide) ih
  | interpreted hs _ ih =>
    have ⟨hOpen, hClose⟩ := hs.no_brace
    exact (Brace.Balanced.of_not_mem (by simpa using hOpen) (by simpa using hClose)).append
      (.cons (by decide) (by decide) ih)
  | @raw _ s _ hs _ ih =>
    have hOpen : '{' ∉ s := fun h => by simpa using hs _ h
    have hClose : '}' ∉ s := fun h => by simpa using hs _ h
    exact (Brace.Balanced.of_not_mem (by simpa using hOpen) (by simpa using hClose)).append
      (.cons (by decide) (by decide) ih)
  | @group _ o c s t hPair _ _ ihs iht =>
    have hSplit : o :: s ++ c :: t = (o :: s ++ [c]) ++ t := by simp
    rw [hSplit]
    refine Brace.Balanced.append ?_ iht
    simp only [IsPair, List.mem_cons, Prod.mk.injEq, List.not_mem_nil, or_false] at hPair
    -- only the third pair are braces, the others do not change the depth
    rcases hPair with ⟨rfl, rfl⟩ | ⟨rfl, rfl⟩ | ⟨rfl, rfl⟩
    · exact .append (.cons (by decide) (by decide) ihs) (.of_not_mem (by decide) (by decide))
    · exact .append (.cons (by decide) (by decide) ihs) (.of_not_mem (by decide) (by decide))
    · exact ihs.braced

/-! ## Commas -/

/-- Depths as they are in text that closes no bracket before it opens it. -/
structure Depths.Nonneg (d : Depths) : Prop where
  braces : 0 ≤ d.braces
  parens : 0 ≤ d.parens
  brackets : 0 ≤ d.brackets

/-- Where a comma is not counted: within some bracket. -/
structure Depths.Inside (d : Depths) : Prop extends d.Nonneg where
  ne_zero : d ≠ {}

/-- An opening bracket leads inside, and its partner leads back. -/
theorem Depths.Nonneg.next_open {d : Depths} (hd : d.Nonneg) {o c : Char} (h : IsPair o c) :
    (d.next o).Inside ∧ (d.next o).next c = d := by
  obtain ⟨braces, parens, brackets⟩ := d
  obtain ⟨hBraces, hParens, hBrackets⟩ := hd
  simp only at hBraces hParens hBrackets
  simp only [IsPair, List.mem_cons, Prod.mk.injEq, List.not_mem_nil, or_false] at h
  rcases h with ⟨rfl, rfl⟩ | ⟨rfl, rfl⟩ | ⟨rfl, rfl⟩
  all_goals
    refine ⟨⟨⟨?_, ?_, ?_⟩, ?_⟩, ?_⟩ <;> simp [Depths.next] <;> omega

namespace LiteralScan

variable {d : Depths} {k : Nat} {c o : Char} {s t p : Text} {g : Bool}

theorem run_append (scan : LiteralScan) (t u : Text) :
    scan.run (t ++ u) = (scan.run t).run u :=
  List.foldl_append

theorem run_cons (scan : LiteralScan) (c : Char) (t : Text) :
    scan.run (c :: t) = (scan.step c).run t :=
  rfl

theorem run_enclosed (scan : LiteralScan) (o c : Char) (s t : Text) :
    scan.run (o :: s ++ c :: t) = (((scan.step o).run s).step c).run t := by
  rw [run_append, run_cons, run_cons]

theorem step_plain (hc : IsPlain c) : step ⟨.code, d, k⟩ c = ⟨.code, d, k⟩ := by
  simp only [IsPlain, List.mem_cons, List.not_mem_nil, or_false, not_or] at hc
  simp [step, LiteralMode.next, Depths.next, hc]

/-- A comma inside a bracket separates no elements of the literal itself. -/
theorem step_comma (hd : d ≠ {}) : step ⟨.code, d, k⟩ ',' = ⟨.code, d, k⟩ := by
  simp [step, LiteralMode.next, Depths.next, betweenElements, hd]

theorem step_bracket (hc : c ∈ ['(', ')', '[', ']', '{', '}']) :
    step ⟨.code, d, k⟩ c = ⟨.code, d.next c, k⟩ := by
  simp only [List.mem_cons, List.not_mem_nil, or_false] at hc
  rcases hc with rfl | rfl | rfl | rfl | rfl | rfl <;> simp [step, LiteralMode.next]

/-- In a string only the mode changes. -/
theorem step_of_ne_code {m : LiteralMode} (hm : m ≠ .code) :
    step ⟨m, d, k⟩ c = ⟨m.next c, d, k⟩ := by
  simp [step, betweenElements, hm]

theorem step_quote : step ⟨.code, d, k⟩ '"' = ⟨.quoted, d, k⟩ := by
  simp [step, LiteralMode.next, Depths.next]

theorem step_backtick : step ⟨.code, d, k⟩ '\x60' = ⟨.raw, d, k⟩ := by
  simp [step, LiteralMode.next, Depths.next]

/-! ### Strings -/

theorem step_escape : step ⟨.code, d, k⟩ '\\' = ⟨.codeEscape, d, k⟩ := by
  simp [step, LiteralMode.next, Depths.next]

theorem run_quoted (hs : Text.Escaped ['"'] s) : run ⟨.quoted, d, k⟩ s = ⟨.quoted, d, k⟩ := by
  induction hs with
  | nil => rfl
  | char hQuote hBackslash _ ih =>
    rw [List.mem_singleton] at hQuote
    rw [run_cons, step_of_ne_code (by decide), LiteralMode.next, if_neg hBackslash,
      if_neg hQuote, ih]
  | escape _ ih =>
    rw [run_cons, step_of_ne_code (by decide), LiteralMode.next, if_pos rfl, run_cons,
      step_of_ne_code (by decide), LiteralMode.next, ih]

theorem run_raw (hs : '\x60' ∉ s) : run ⟨.raw, d, k⟩ s = ⟨.raw, d, k⟩ := by
  induction s with
  | nil => rfl
  | cons c s ih =>
    rw [List.mem_cons, not_or] at hs
    rw [run_cons, step_of_ne_code (by decide), LiteralMode.next, if_neg (Ne.symm hs.1), ih hs.2]

/-- A string that breaks off hides its commas, too. -/
theorem commas_run_interpreted (hs : Interpreted s) (hp : p <+: s) :
    (run ⟨.quoted, d, k⟩ p).commas = k := by
  induction hs generalizing p with
  | nil =>
    rw [List.prefix_nil.mp hp]
    rfl
  | char hc _ ih =>
    rcases List.prefix_cons_iff.mp hp with rfl | ⟨q, rfl, hq⟩
    · rfl
    · simp only [List.mem_cons, List.not_mem_nil, or_false, not_or] at hc
      rw [run_cons, step_of_ne_code (by decide), LiteralMode.next, if_neg hc.2.1, if_neg hc.1]
      exact ih hq
  | escape _ _ ih =>
    rcases List.prefix_cons_iff.mp hp with rfl | ⟨q, rfl, hq⟩
    · rfl
    · rw [run_cons, step_of_ne_code (by decide), LiteralMode.next, if_pos rfl]
      rcases List.prefix_cons_iff.mp hq with rfl | ⟨r, rfl, hr⟩
      · rfl
      · rw [run_cons, step_of_ne_code (by decide)]
        exact ih hr

/-! ### Elements -/

theorem run_interpreted_append (hs : Text.Escaped ['"'] s) (t : Text) :
    run ⟨.code, d, k⟩ ('"' :: s ++ '"' :: t) = run ⟨.code, d, k⟩ t := by
  rw [run_enclosed, step_quote, run_quoted hs, step_of_ne_code (by decide)]
  rfl

theorem run_raw_append (hs : '\x60' ∉ s) (t : Text) :
    run ⟨.code, d, k⟩ ('\x60' :: s ++ '\x60' :: t) = run ⟨.code, d, k⟩ t := by
  rw [run_enclosed, step_backtick, run_raw hs, step_of_ne_code (by decide)]
  rfl

/-- The count of commas comes out as it went in of text that it passes over. -/
theorem run_silent (h : Silent g t) (hd : d.Nonneg) (hg : g = true → d ≠ {}) :
    run ⟨.code, d, k⟩ t = ⟨.code, d, k⟩ := by
  -- inside a group the depths are other ones, so the induction is over all of them
  induction h generalizing d with
  | nil => rfl
  | plain hc _ ih => rw [run_cons, step_plain hc, ih hd hg]
  | escape _ ih =>
    rw [run_cons, step_escape, run_cons, step_of_ne_code (by decide), LiteralMode.next, ih hd hg]
  | comma _ ih => rw [run_cons, step_comma (hg rfl), ih hd hg]
  | interpreted hs _ ih => rw [run_interpreted_append hs, ih hd hg]
  | raw hs _ ih => rw [run_raw_append hs, ih hd hg]
  | group hPair _ _ ihs iht =>
    obtain ⟨hInside, hBack⟩ := hd.next_open hPair
    rw [run_enclosed, step_bracket hPair.opening, ihs hInside.toNonneg fun _ => hInside.ne_zero,
      step_bracket hPair.closing, hBack, iht hd hg]

/-- The count of commas comes out of complete pieces as it went in. -/
theorem run_elements (h : Elements g t) (hd : d.Nonneg) (hg : g = true → d ≠ {}) :
    run ⟨.code, d, k⟩ t = ⟨.code, d, k⟩ :=
  run_silent h.silent hd hg

/-- No comma of an element is counted, wherever the element breaks off. -/
theorem commas_run_prefix (h : Elements g t) (hp : p <+: t) (hd : d.Nonneg)
    (hg : g = true → d ≠ {}) : (run ⟨.code, d, k⟩ p).commas = k := by
  induction h generalizing d p with
  | nil =>
    rw [List.prefix_nil.mp hp]
    rfl
  | plain hc _ ih =>
    rcases List.prefix_cons_iff.mp hp with rfl | ⟨q, rfl, hq⟩
    · rfl
    · rw [run_cons, step_plain hc]
      exact ih hq hd hg
  | comma _ ih =>
    rcases List.prefix_cons_iff.mp hp with rfl | ⟨q, rfl, hq⟩
    · rfl
    · rw [run_cons, step_comma (hg rfl)]
      exact ih hq hd hg
  | interpreted hs _ ih =>
    rcases Text.prefix_enclosed_cases hp with rfl | ⟨q, rfl, hq⟩ | ⟨q, rfl, hq⟩
    · rfl
    · rw [run_cons, step_quote]
      exact commas_run_interpreted hs hq
    · rw [run_interpreted_append hs.escaped]
      exact ih hq hd hg
  | @raw _ s _ hs _ ih =>
    have hTick : '\x60' ∉ s := fun h => by simpa using hs _ h
    rcases Text.prefix_enclosed_cases hp with rfl | ⟨q, rfl, hq⟩ | ⟨q, rfl, hq⟩
    · rfl
    · rw [run_cons, step_backtick, run_raw fun h => hTick (hq.subset h)]
    · rw [run_raw_append hTick]
      exact ih hq hd hg
  | group hPair hs _ ihs iht =>
    obtain ⟨hInside, hBack⟩ := hd.next_open hPair
    -- the element breaks off before the group, in it, or behind it
    rcases Text.prefix_enclosed_cases hp with rfl | ⟨q, rfl, hq⟩ | ⟨q, rfl, hq⟩
    · rfl
    · rw [run_cons, step_bracket hPair.opening]
      exact ihs hq hInside.toNonneg fun _ => hInside.ne_zero
    · rw [run_enclosed, step_bracket hPair.opening,
        run_elements hs hInside.toNonneg fun _ => hInside.ne_zero, step_bracket hPair.closing,
        hBack]
      exact iht hq hd hg

end LiteralScan

end FieldHint.Cursor
