import FieldHint.Proofs.Body.Spacing

/-!
# Remarks at the end of a line

Behind the code of a line there may be blanks and a comment. The readers agree on where that
starts, unless the code ends in a slash that runs into the mark:

* `Comment.mark_infix_append_iff` — a comment mark lies in one of two texts, or across their seam;
* `Remark.strip_cut` — cutting and stripping a line leaves its code;
* `Remark.comment?_trimmed` — behind a tag, or nothing, the remark is read as what it says;
* `Remark.passes` — the splitter comes through a remark.
-/

namespace FieldHint

/-- What may follow the code of a line: blanks, and perhaps a line comment. -/
structure Remark where
  pad : Text := []
  comment : Option Text := none

namespace Remark

/-- The remark as it is written. -/
def text (r : Remark) : Text :=
  r.pad ++
    match r.comment with
    | none => []
    | some said => '/' :: '/' :: said

/-- What the comment says, if it says anything. -/
def said? (r : Remark) : Option Text := r.comment.bind fun said => (Text.strip said).nonempty?

/-- The remark stays on its line. -/
structure WellFormed (r : Remark) : Prop where
  pad : r.pad.IsPadding
  comment : ∀ said ∈ r.comment, '\n' ∉ said

theorem wellFormed_iff {r : Remark} :
    r.WellFormed ↔ r.pad.IsPadding ∧ ∀ said ∈ r.comment, '\n' ∉ said :=
  ⟨fun h => ⟨h.pad, h.comment⟩, fun h => ⟨h.1, h.2⟩⟩

instance (r : Remark) : Decidable r.WellFormed := decidable_of_iff _ wellFormed_iff.symm

/-- The comment starts with its own mark: no slash stands right before it. -/
def Apart (r : Remark) (code : Text) : Prop :=
  r.comment.isSome = true → (code ++ r.pad).getLast? ≠ some '/'

instance (r : Remark) (code : Text) : Decidable (r.Apart code) :=
  inferInstanceAs (Decidable (r.comment.isSome = true → (code ++ r.pad).getLast? ≠ some '/'))

end Remark

/-! ## Where a comment starts -/

namespace Comment

variable {t u : Text}

theorem mark_infix_append_iff :
    mark <:+: t ++ u ↔
      mark <:+: t ∨ mark <:+: u ∨ t.getLast? = some '/' ∧ u.head? = some '/' := by
  rw [List.infix_append_iff_ne_nil]
  refine or_congr Iff.rfl (or_congr Iff.rfl ?_)
  constructor
  · -- across the seam, each text holds one of the two slashes
    rintro ⟨a, b, ha, hb, hMark, hSuffix, hPrefix⟩
    obtain ⟨c, a, rfl⟩ := List.exists_cons_of_ne_nil ha
    obtain ⟨d, b, rfl⟩ := List.exists_cons_of_ne_nil hb
    obtain ⟨rfl, rfl, rfl, rfl⟩ : a = [] ∧ b = [] ∧ c = '/' ∧ d = '/' := by
      cases a <;> simp_all [mark, eq_comm]
    obtain ⟨x, rfl⟩ := hSuffix
    obtain ⟨y, rfl⟩ := hPrefix
    exact ⟨List.getLast?_concat, rfl⟩
  · rintro ⟨hLast, hHead⟩
    obtain ⟨x, rfl⟩ := List.getLast?_eq_some_iff.mp hLast
    obtain ⟨y, rfl⟩ := List.head?_eq_some_iff.mp hHead
    exact ⟨['/'], ['/'], by simp, by simp, rfl, List.suffix_append x _, ⟨y, rfl⟩⟩

/-- A comment is cut off where its mark is met first. -/
theorem cut_append_mark (ht : ¬ mark <:+: t) (hLast : t.getLast? ≠ some '/') (u : Text) :
    cut (t ++ '/' :: '/' :: u) = t := by
  unfold cut
  induction t with
  | nil => simp [mark, Text.before]
  | cons c t ih =>
    have hNot : ¬ mark <+: c :: t ++ '/' :: '/' :: u := by
      intro h
      rcases Text.prefix_append_cases h with h | ⟨s, hs, -⟩
      · exact ht h.isInfix
      -- the text in front of the mark would be one slash
      · obtain ⟨rfl, hRest⟩ := List.cons.inj hs
        cases t with
        | nil => exact hLast rfl
        | cons d t =>
          obtain ⟨rfl, -⟩ := List.cons.inj hRest
          exact ht ⟨[], t, rfl⟩
    have hTail : t.getLast? ≠ some '/' := by
      intro h
      exact hLast (by rw [List.getLast?_cons, h]; rfl)
    rw [List.cons_append] at hNot ⊢
    rw [Text.before, if_neg (hNot ∘ List.isPrefixOf_iff_prefix.mp),
      ih (fun h => ht (h.trans (List.suffix_cons c t).isInfix)) hTail]

end Comment

/-! ## Reading a remark -/

namespace Remark

variable {r : Remark} {t : Text} {m : Body.Mode} {d : Int}

theorem WellFormed.no_newline (hr : r.WellFormed) : '\n' ∉ r.text := by
  obtain ⟨pad, comment⟩ := r
  have hPad := hr.pad.no_newline
  cases comment with
  | none => simpa [text] using hPad
  | some said => simpa [text, hPad] using hr.comment said rfl

/-- Cutting and stripping a line leaves its code. -/
theorem strip_cut (hr : r.WellFormed) (hCode : ¬ Comment.mark <:+: t) (hApart : r.Apart t) :
    Text.strip (Comment.cut (t ++ r.text)) = Text.strip t := by
  have hPad : ¬ Comment.mark <:+: r.pad :=
    Text.not_infix_of_not_mem (x := '/') (by decide) (hr.pad.not_mem (by decide))
  have hLine : ¬ Comment.mark <:+: t ++ r.pad := by
    rw [Comment.mark_infix_append_iff]
    rintro (h | h | ⟨-, h⟩)
    · exact hCode h
    · exact hPad h
    · exact hr.pad.not_mem (by decide) (List.mem_of_head? h)
  obtain ⟨pad, comment⟩ := r
  cases comment with
  | none =>
    show Text.strip (Comment.cut (t ++ (pad ++ []))) = Text.strip t
    rw [List.append_nil, Comment.cut, Text.before_of_not_infix hLine,
      Text.strip_append_blank hr.pad.isBlank]
  | some said =>
    show Text.strip (Comment.cut (t ++ (pad ++ '/' :: '/' :: said))) = Text.strip t
    rw [← List.append_assoc, Comment.cut_append_mark hLine (hApart rfl),
      Text.strip_append_blank hr.pad.isBlank]

/-- What is left of a remark when the blanks at the end of its line are stripped. -/
def trimmed (r : Remark) : Text :=
  match r.comment with
  | none => []
  | some said => r.pad ++ '/' :: '/' :: Text.stripEnd said

theorem stripEnd_append_text (hr : r.WellFormed)
    (ht : ∀ c ∈ t.getLast?, Text.isBlank c = false) :
    Text.stripEnd (t ++ r.text) = t ++ r.trimmed := by
  obtain ⟨pad, comment⟩ := r
  cases comment with
  | none =>
    show Text.stripEnd (t ++ (pad ++ [])) = t ++ []
    rw [List.append_nil, List.append_nil, Text.stripEnd_append_blank hr.pad.isBlank,
      Text.stripEnd_eq_self ht]
  | some said =>
    have hSplit : t ++ (pad ++ '/' :: '/' :: said) = (t ++ pad ++ ['/']) ++ '/' :: said := by simp
    show Text.stripEnd (t ++ (pad ++ '/' :: '/' :: said)) = t ++ (pad ++ '/' :: '/' :: _)
    rw [hSplit, Text.stripEnd_append_cons (by decide)]
    simp

/-- It is read as what the comment says. -/
theorem comment?_trimmed (hr : r.WellFormed) :
    Row.comment? (Text.stripStart r.trimmed) = some r.said? := by
  obtain ⟨pad, comment⟩ := r
  cases comment with
  | none => rfl
  | some said =>
    have hStart : Text.stripStart (pad ++ '/' :: '/' :: Text.stripEnd said) =
        '/' :: '/' :: Text.stripEnd said :=
      Text.dropWhile_run hr.pad.isBlank (by rintro _ ⟨⟩; decide)
    show Row.comment? (Text.stripStart (pad ++ '/' :: '/' :: Text.stripEnd said)) =
      some (Text.strip said).nonempty?
    rw [hStart, Row.comment?_mark, Text.strip_stripEnd]

/-- The splitter comes through a remark, wherever it stands. -/
theorem passes (hr : r.WellFormed) (hm : m.isCode = true) :
    ∃ m', Body.Scan.Passes ⟨m, d⟩ r.text ⟨m', d⟩ := by
  obtain ⟨pad, comment⟩ := r
  obtain ⟨m', hm', hPad⟩ := Body.Scan.passes_padding (d := d) hr.pad hm
  cases comment with
  | none => exact ⟨m', hPad.append .nil⟩
  | some said =>
    exact ⟨.comment, hPad.append (Body.Scan.passes_comment (hr.comment said rfl) hm')⟩

end Remark

end FieldHint
