import FieldHint.Proofs.Cursor.Literal

/-!
# Cursor — contents of strings, runes and comments

What stands in a string means nothing to the literal around it, and one would like to say the same
of runes and comments. The two scans of a literal know less: the search for the open brace counts
braces everywhere, and the count of commas takes runes and comments for code. So contents may be
exchanged freely only if they are `Inert`: braces in pairs, and in a rune or a comment no comma,
string or bracket that would have a meaning in code.

* `contents_not_inert` — contents that do change the context;
* `run_write` — the count of commas passes a lexeme with inert contents;
* `context?_replace` — such contents may be replaced by others without changing the context.
-/

namespace FieldHint.Cursor

/-! ## Lexemes -/

/-- What may stand in a literal with contents of its own. -/
inductive Lexeme
  | interpreted
  | raw
  | rune
  | comment
  deriving DecidableEq, Repr

namespace Lexeme

/-- What the lexeme starts with. -/
def opening : Lexeme → Text
  | interpreted => ['"']
  | raw => ['\x60']
  | rune => ['\'']
  | comment => ['/', '/']

/-- What ends the lexeme. -/
def closing : Lexeme → Text
  | interpreted => ['"']
  | raw => ['\x60']
  | rune => ['\'']
  | comment => ['\n']

/-- The lexeme with its contents. -/
def write (l : Lexeme) (contents : Text) : Text := l.opening ++ contents ++ l.closing

/-- Whether the lexeme is a string, which the count of commas knows. -/
def isString : Lexeme → Bool
  | interpreted | raw => true
  | rune | comment => false

/-- The contents do not end the lexeme. -/
def Holds : Lexeme → Text → Prop
  | interpreted, t => Text.Escaped ['"'] t
  | raw, t => '\x60' ∉ t
  | rune, t => Text.Escaped ['\''] t
  | comment, t => '\n' ∉ t

/-- Contents that neither scan of the literal sees, where the count of commas has come to `scan` in
front of the lexeme. Commas are taken for commas in a rune or a comment, but inside a bracket those
do not count. -/
structure Inert (l : Lexeme) (scan : LiteralScan) (t : Text) : Prop where
  holds : l.Holds t
  balanced : Brace.Balanced t
  silent : l.isString = false →
    scan.depths.Nonneg ∧ Silent (decide (scan.depths ≠ {})) (t ++ l.closing)

end Lexeme

/-- Contents that a lexeme can hold and that still change the context. The search for the brace
takes a brace in a string for the literal's own. The count of commas takes a comma in a rune for
one between elements, and a quote in a comment for the start of a string. -/
theorem contents_not_inert :
    (Lexeme.Holds .interpreted ['a'] ∧ Lexeme.Holds .interpreted ['{'] ∧
      context? ('P' :: '{' :: (Lexeme.write .interpreted ['a'] ++ [','])) 6 = some ⟨['P'], 0, 1⟩ ∧
      context? ('P' :: '{' :: (Lexeme.write .interpreted ['{'] ++ [','])) 6 = none) ∧
    (Lexeme.Holds .rune ['a'] ∧ Lexeme.Holds .rune [','] ∧
      context? ('P' :: '{' :: (Lexeme.write .rune ['a'] ++ [','])) 6 = some ⟨['P'], 0, 1⟩ ∧
      context? ('P' :: '{' :: (Lexeme.write .rune [','] ++ [','])) 6 = some ⟨['P'], 0, 2⟩) ∧
    (Lexeme.Holds .comment ['a'] ∧ Lexeme.Holds .comment ['"'] ∧
      context? ('P' :: '{' :: (Lexeme.write .comment ['a'] ++ [','])) 7 = some ⟨['P'], 0, 1⟩ ∧
      context? ('P' :: '{' :: (Lexeme.write .comment ['"'] ++ [','])) 7 = some ⟨['P'], 0, 0⟩) := by
  -- one character that is neither the quote nor a backslash
  have hOne : ∀ {quote c : Char}, c ∉ [quote] → c ≠ '\\' → Text.Escaped [quote] [c] :=
    fun hQuote hBackslash => .char hQuote hBackslash .nil
  have hLine : '\n' ∉ ['a'] ∧ '\n' ∉ ['"'] := by decide
  refine ⟨⟨?_, ?_, by decide, by decide⟩, ⟨?_, ?_, by decide, by decide⟩,
    hLine.1, hLine.2, by decide, by decide⟩
  · exact hOne (by decide) (by decide)
  · exact hOne (by decide) (by decide)
  · exact hOne (by decide) (by decide)
  · exact hOne (by decide) (by decide)

variable {l : Lexeme} {outer inner rest s s' : Text} {scan : LiteralScan} {cursor : Int}

/-! ## The count of commas -/

/-- The count of commas comes out of a lexeme with inert contents as it went in. -/
theorem run_write (hCode : scan.mode = .code) (h : l.Inert scan s) :
    scan.run (l.write s) = scan := by
  obtain ⟨m, d, k⟩ := scan
  change m = .code at hCode
  subst hCode
  have hCommas : decide (d ≠ {}) = true → d ≠ {} := of_decide_eq_true
  cases l with
  | interpreted =>
    rw [Lexeme.write, List.append_assoc]
    exact LiteralScan.run_interpreted_append h.holds []
  | raw =>
    rw [Lexeme.write, List.append_assoc]
    exact LiteralScan.run_raw_append h.holds []
  | rune =>
    -- the count takes the quotes of a rune for plain characters
    obtain ⟨hNonneg, hSilent⟩ := h.silent rfl
    have hWrite : Lexeme.write .rune s = '\'' :: (s ++ Lexeme.closing .rune) := rfl
    rw [hWrite]
    exact LiteralScan.run_silent (.plain (by decide) hSilent) hNonneg hCommas
  | comment =>
    obtain ⟨hNonneg, hSilent⟩ := h.silent rfl
    have hWrite : Lexeme.write .comment s = '/' :: '/' :: (s ++ Lexeme.closing .comment) := rfl
    rw [hWrite]
    exact LiteralScan.run_silent (.plain (by decide) (.plain (by decide) hSilent)) hNonneg hCommas

/-- So the commas counted in a literal are those before and behind the lexeme. -/
theorem countCommas_write (hCode : (LiteralScan.run {} inner).mode = .code)
    (h : l.Inert (LiteralScan.run {} inner) s) (t : Text) :
    countCommas (inner ++ (l.write s ++ t)) = countCommas (inner ++ t) := by
  rw [countCommas, countCommas, LiteralScan.run_append, LiteralScan.run_append, run_write hCode h,
    ← LiteralScan.run_append]

/-! ## The context -/

/-- Text before a cursor in a literal: inert contents may be replaced by others. -/
theorem atEnd_replace {behind : Text}
    (hBalanced : Brace.Balanced (inner ++ (l.write s ++ behind)))
    (hCode : (LiteralScan.run {} inner).mode = .code)
    (hOld : l.Inert (LiteralScan.run {} inner) s) (hNew : l.Inert (LiteralScan.run {} inner) s') :
    Site.atEnd (outer ++ '{' :: (inner ++ (l.write s' ++ behind))) =
      Site.atEnd (outer ++ '{' :: (inner ++ (l.write s ++ behind))) := by
  have hAround : ∀ t : Text, inner ++ (l.write t ++ behind) =
      (inner ++ l.opening) ++ t ++ (l.closing ++ behind) := by
    intro t
    simp [Lexeme.write]
  -- the brace stays the innermost one that is open
  have hBalanced' : Brace.Balanced (inner ++ (l.write s' ++ behind)) := by
    rw [hAround] at hBalanced ⊢
    exact hBalanced.replace hOld.balanced hNew.balanced
  rw [atEnd_open hBalanced', atEnd_open hBalanced, countCommas_write hCode hNew,
    countCommas_write hCode hOld]

/-- In a literal, the contents of a string, a rune or a comment before the cursor may be replaced by
others of the same length, if both are inert. The literal is the one whose brace is open at the
cursor, all braces counted; and the lexeme starts where the count of commas reads code. -/
theorem context?_replace
    (hBehind : ((outer ++ '{' :: (inner ++ l.write s)).length : Int) ≤ cursor)
    (hEnclosing : Brace.Balanced
      (((outer ++ '{' :: (inner ++ (l.write s ++ rest))).take cursor.toNat).drop
        (outer.length + 1)))
    (hCode : (LiteralScan.run {} inner).mode = .code)
    (hOld : l.Inert (LiteralScan.run {} inner) s) (hNew : l.Inert (LiteralScan.run {} inner) s')
    (hLength : s'.length = s.length) :
    context? (outer ++ '{' :: (inner ++ (l.write s' ++ rest))) cursor =
      context? (outer ++ '{' :: (inner ++ (l.write s ++ rest))) cursor := by
  have hSame : (l.write s').length = (l.write s).length := by
    simp only [Lexeme.write, List.length_append, hLength]
  -- the cursor cuts the text behind the lexeme, at the same place in both texts
  obtain ⟨n, hn⟩ : ∃ n, cursor.toNat = (outer ++ '{' :: (inner ++ l.write s)).length + n :=
    ⟨cursor.toNat - (outer ++ '{' :: (inner ++ l.write s)).length, by omega⟩
  have hTake : ∀ t : Text, (l.write t).length = (l.write s).length →
      (outer ++ '{' :: (inner ++ (l.write t ++ rest))).take cursor.toNat =
        outer ++ '{' :: (inner ++ (l.write t ++ rest.take n)) := by
    intro t ht
    have hSplit : ∀ r : Text, outer ++ '{' :: (inner ++ (l.write t ++ r)) =
        (outer ++ '{' :: (inner ++ l.write t)) ++ r := by
      intro r
      simp
    have hCut : cursor.toNat = (outer ++ '{' :: (inner ++ l.write t)).length + n := by
      simp only [hn, List.length_append, List.length_cons, ht]
    rw [hSplit, hSplit, hCut, List.take_length_add_append]
  have hBalanced : Brace.Balanced (inner ++ (l.write s ++ rest.take n)) := by
    have hDrop : (outer ++ '{' :: (inner ++ (l.write s ++ rest.take n))).drop (outer.length + 1) =
        inner ++ (l.write s ++ rest.take n) := by
      rw [← List.drop_drop, List.drop_left]
      rfl
    rwa [hTake s rfl, hDrop] at hEnclosing
  rw [context?, context?, Site.around, Site.around, hTake s' hSame, hTake s rfl,
    atEnd_replace hBalanced hCode hOld hNew]

/-- The theorem at a comment inside a call: commas do not count there, nor do brackets and strings
that the comment closes itself. -/
theorem context?_replace_in_call :
    context? (['P'] ++ '{' :: (['f', '('] ++
        (Lexeme.write .comment ['[', ',', ']', '\\', '('] ++ ['1', ')', ',']))) 15 =
      context? (['P'] ++ '{' :: (['f', '('] ++
        (Lexeme.write .comment [',', '"', '{', '}', '"'] ++ ['1', ')', ',']))) 15 := by
  have hNonneg : (LiteralScan.run {} ['f', '(']).depths.Nonneg :=
    ⟨by decide, by decide, by decide⟩
  have hBraces : Text.Escaped ['"'] ['{', '}'] :=
    .char (by decide) (by decide) (.char (by decide) (by decide) .nil)
  have hOld : Silent true ([',', '"', '{', '}', '"'] ++ ['\n']) :=
    .comma (.interpreted (s := ['{', '}']) (t := ['\n']) hBraces (.plain (by decide) .nil))
  have hNew : Silent true (['[', ',', ']', '\\', '('] ++ ['\n']) :=
    .group (o := '[') (c := ']') (s := [',']) (t := ['\\', '(', '\n']) (by decide) (.comma .nil)
      (.escape (.plain (by decide) .nil))
  have hOldLine : '\n' ∉ [',', '"', '{', '}', '"'] := by decide
  have hNewLine : '\n' ∉ ['[', ',', ']', '\\', '('] := by decide
  exact context?_replace (l := .comment) (by decide) (by decide) (by decide)
    ⟨hOldLine, by decide, fun _ => ⟨hNonneg, hOld⟩⟩
    ⟨hNewLine, by decide, fun _ => ⟨hNonneg, hNew⟩⟩ rfl

end FieldHint.Cursor
