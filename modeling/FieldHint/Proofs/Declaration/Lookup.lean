import FieldHint.Proofs.Declaration.Code
import FieldHint.Proofs.Declaration.Comment

/-!
# Declarations — the first of a name

A declaration is found by its name if no line before it opens a definition of that name. Lines that
open one are told by what is on them: a header cannot go on behind a line feed, so nothing that
follows the line has a say.

* `Header.Opens.of_append_newline` — a header that opens on a line lies on that line;
* `Header.Absent.of_comments` — comment lines open no definition;
* `find?_behind` — the first declaration behind text that opens none;
* `find?_documented` — the same below comment lines, which document it.
-/

namespace FieldHint

namespace Header

variable {name t u : Text}

/-! ## Lines that open a definition -/

/-- The text starts with a header of the name, behind an indent: `type Name struct {`. -/
def Opens (name t : Text) : Prop :=
  ∃ indent lead gap gap', (∀ c ∈ indent, Text.isSpacing c = true) ∧ lead ≠ [] ∧
    (∀ c ∈ lead, Text.isSpacing c = true) ∧ Words Text.isSpacing name gap gap' ∧
    indent ++ (typeKeyword ++ (lead ++ spell name gap gap' [])) <+: t

namespace Opens

theorem mono (h : Opens name t) (ht : t <+: u) : Opens name u := by
  obtain ⟨indent, lead, gap, gap', hIndent, hne, hLead, hWords, hPrefix⟩ := h
  exact ⟨indent, lead, gap, gap', hIndent, hne, hLead, hWords, hPrefix.trans ht⟩

/-- A header lies on the line that it opens on. -/
theorem of_append_newline (h : Opens name (t ++ '\n' :: u)) : Opens name t := by
  obtain ⟨indent, lead, gap, gap', hIndent, hne, hLead, hWords, hPrefix⟩ := h
  refine ⟨indent, lead, gap, gap', hIndent, hne, hLead, hWords, ?_⟩
  refine (Text.prefix_append_cons_iff ?_).mp hPrefix
  -- no part of a header holds a line feed
  have hSpacing : ∀ {v : Text}, (∀ c ∈ v, Text.isSpacing c = true) → '\n' ∉ v :=
    fun hv => Text.not_mem_of_class hv (by decide)
  have hName : '\n' ∉ name := Text.not_mem_of_class hWords.isWord_name (by decide)
  simp [typeKeyword, structKeyword, spell, hSpacing hIndent, hSpacing hLead, hName,
    hSpacing hWords.blank_gap, hSpacing hWords.blank_gap']

theorem not_nil : ¬ Opens name [] := by
  rintro ⟨indent, lead, gap, gap', -, -, -, -, hPrefix⟩
  simp [typeKeyword] at hPrefix

/-- A comment line opens no definition. -/
theorem not_comment {line : Text} (hLine : Comment.IsLine line) : ¬ Opens name line := by
  rintro ⟨indent, lead, gap, gap', hIndent, -, -, -, rest, rfl⟩
  have hOpens := hLine.opens
  have hBlank : ∀ c ∈ indent, Text.isBlank c = true :=
    fun c hc => Text.isBlank_of_isSpacing (hIndent c hc)
  rw [List.append_assoc, Text.strip_blank_append hBlank, Comment.opens,
    List.isPrefixOf_iff_prefix] at hOpens
  -- behind the indent stands the keyword, not the mark of a comment
  have hPrefix := hOpens.trans (Text.strip_prefix (by rintro _ ⟨⟩; decide))
  simp [Comment.mark, typeKeyword] at hPrefix

end Opens

/-- No line of the text opens a definition of the name. -/
def Absent (name t : Text) : Prop := ∀ s ∈ Text.lineStarts t, ¬ Opens name s.2

namespace Absent

/-- The lines of the text open no definition in front of other lines, either. -/
theorem not_opens (h : Absent name (t ++ ['\n'])) {s : Nat × Text} (hs : s ∈ Text.lineStarts t)
    (u : Text) : ¬ Opens name (s.2 ++ '\n' :: u) := by
  intro hOpens
  refine h (s.1, s.2 ++ ['\n']) ?_ (hOpens.of_append_newline.mono (List.prefix_append _ _))
  rw [Text.lineStarts_append_newline, List.mem_append, List.mem_map]
  exact Or.inl ⟨s, hs, rfl⟩

theorem append (hEnds : Text.EndsLine t) (ht : Absent name t) (hu : Absent name u) :
    Absent name (t ++ u) := by
  rcases hEnds with rfl | hLast
  · exact hu
  · obtain ⟨t, rfl⟩ := List.getLast?_eq_some_iff.mp hLast
    intro s hs
    rw [List.append_assoc, List.singleton_append, Text.lineStarts_append_newline, List.mem_append,
      List.mem_map, List.mem_map] at hs
    rcases hs with ⟨s, hs, rfl⟩ | ⟨s, hs, rfl⟩
    · exact ht.not_opens hs u
    · exact hu s hs

theorem of_comments {lines : List Text} (h : ∀ line ∈ lines, Comment.IsLine line) :
    Absent name (lines.flatMap (· ++ ['\n'])) := by
  induction lines with
  | nil =>
    intro s hs
    rw [List.mem_singleton.mp hs]
    exact Opens.not_nil
  | cons line lines ih =>
    have hLine := h line List.mem_cons_self
    rw [List.flatMap_cons, List.append_assoc, List.singleton_append]
    intro s hs
    rw [Text.lineStarts_append_newline, Text.lineStarts_of_line hLine.no_newline, List.mem_append,
      List.mem_map, List.mem_map] at hs
    rcases hs with ⟨s, hs, rfl⟩ | ⟨s, hs, rfl⟩
    -- the comment line itself, and the lines behind it
    · rw [List.mem_singleton.mp hs]
      exact fun hOpens => Opens.not_comment hLine hOpens.of_append_newline
    · exact ih (fun l hl => h l (List.mem_cons_of_mem _ hl)) s hs

end Absent

end Header

namespace Declaration

variable {t code body name : Text} {start : Nat} {d : Declaration}

/-! ## Finding a declaration -/

theorem opens_of_atLine? (h : atLine? start t = some d) : Header.Opens d.name t := by
  obtain ⟨indent, code, rest, found, rfl, hIndent, hDefines, rfl⟩ := atLine?_eq_some_iff.mp h
  obtain ⟨lead, gap, gap', rfl, hne, hLead, hWords⟩ := hDefines.spelled
  exact ⟨indent, lead, gap, gap', hIndent, hne, hLead, hWords, found.body ++ '}' :: rest,
    by simp [Header.spell]⟩

/-- The declaration of a name is the first one, if no line before it opens a definition of it. -/
theorem find?_behind (ht : Text.EndsLine t) (hAbsent : Header.Absent name t)
    (hDefines : NamedBody.Defines Text.isSpacing code ⟨name, body⟩) (rest : Text) :
    Declaration.find? (t ++ (code ++ rest)) name =
      some ⟨name, t.length, code, t.length + code.length - 1⟩ := by
  -- the code starts a line, and no line before it opens a definition of the name
  obtain ⟨earlier, later, hStarts, hEarlier⟩ : ∃ earlier later,
      Text.lineStarts (t ++ (code ++ rest)) = earlier ++ (t.length, code ++ rest) :: later ∧
        ∀ s ∈ earlier, ¬ Header.Opens name s.2 := by
    rcases ht with rfl | ht
    · exact ⟨[], _, rfl, by simp⟩
    · obtain ⟨b, rfl⟩ := List.getLast?_eq_some_iff.mp ht
      refine ⟨(Text.lineStarts b).map fun s => (s.1, s.2 ++ '\n' :: (code ++ rest)),
        (Text.laterLineStarts 0 (code ++ rest)).map fun s => (s.1 + (b.length + 1), s.2), ?_, ?_⟩
      · rw [List.append_assoc, List.singleton_append, Text.lineStarts_append_newline,
          Text.lineStarts.eq_def (code ++ rest), List.map_cons]
        simp
      · rintro _ hMem
        obtain ⟨s, hs, rfl⟩ := List.mem_map.mp hMem
        exact hAbsent.not_opens hs (code ++ rest)
  have hNoIndent : ∀ c ∈ ([] : Text), Text.isSpacing c = true := by simp
  have hRead := atLine?_of_defines hDefines hNoIndent t.length rest
  rw [List.nil_append, List.nil_append] at hRead
  -- so the declarations on those lines have other names
  obtain ⟨before, behind, hUngrouped, hBefore⟩ : ∃ before behind,
      ungrouped (t ++ (code ++ rest)) =
        before ++ ⟨name, t.length, code, t.length + code.length - 1⟩ :: behind ∧
        ∀ e ∈ before, e.name ≠ name := by
    refine ⟨earlier.filterMap fun s => atLine? s.1 s.2, later.filterMap fun s => atLine? s.1 s.2,
      ?_, ?_⟩
    · rw [ungrouped, hStarts, List.filterMap_append]
      exact congrArg _ (List.filterMap_cons_some hRead)
    intro e he
    obtain ⟨s, hs, hLine⟩ := List.mem_filterMap.mp he
    rintro rfl
    exact hEarlier s hs (opens_of_atLine? hLine)
  have hNone : before.find? (·.name = name) = none := by
    simpa [List.find?_eq_none] using hBefore
  rw [Declaration.find?, all, hUngrouped, List.find?_append, List.find?_append, hNone]
  simp

/-- A declaration right below comment lines is found with what they say. -/
theorem find?_documented {comments : List Text} (ht : EndsBlank t) (hAbsent : Header.Absent name t)
    (hComments : ∀ line ∈ comments, Comment.IsLine line)
    (hDefines : NamedBody.Defines Text.isSpacing code ⟨name, body⟩) (rest : Text) :
    ∃ d, Declaration.find? (t ++ comments.flatMap (· ++ ['\n']) ++ (code ++ rest)) name = some d ∧
      d.code = code ∧
      d.doc? (t ++ comments.flatMap (· ++ ['\n']) ++ (code ++ rest)) = Comment.textOf comments := by
  have hEnds : Text.EndsLine (t ++ comments.flatMap (· ++ ['\n'])) :=
    ht.endsLine.append (Text.endsLine_flatMap comments)
  have hNone : Header.Absent name (t ++ comments.flatMap (· ++ ['\n'])) :=
    hAbsent.append ht.endsLine (Header.Absent.of_comments hComments)
  exact ⟨_, find?_behind hEnds hNone hDefines rest, rfl, commentAbove_lines ht hComments⟩

end Declaration

end FieldHint
