import FieldHint.Declaration.Lookup
import FieldHint.Proofs.Declaration.Group
import FieldHint.Proofs.Struct.Definition

/-!
# Declarations — the text that is cut out

Whatever a document holds, every declaration that is found in it is the definition of a named
body: it starts with the keyword, and it ends with the brace that closes the body.

* `atLine?_eq_some_iff` — a declaration on a line of its own, behind an indent;
* `eq_of_groupStep` — a member of a group, with the keyword put in front;
* `exists_defines` — all declarations of a document, however malformed that is.
-/

namespace FieldHint.Declaration

variable {document t code rest indent : Text} {start last skip : Nat} {d : Declaration}
  {found : NamedBody}

/-! ## Lines of their own -/

/-- A definition behind an indent is the declaration on that line. -/
theorem atLine?_of_defines (h : NamedBody.Defines Text.isSpacing code found)
    (hIndent : ∀ c ∈ indent, Text.isSpacing c = true) (start : Nat) (rest : Text) :
    atLine? start (indent ++ (code ++ rest)) =
      some ⟨found.name, start, code, start + (indent ++ code).length - 1⟩ := by
  have hHeader := h.definition? (fun _ => Text.isBlank_of_isSpacing) rest
  obtain ⟨header, hCode⟩ := h.exists_header
  have hLength : code.length = header.length + found.body.length + 2 := by
    rw [hCode]
    simp only [List.length_append, List.length_cons, List.length_nil]
    omega
  have hDrop : (indent ++ (code ++ rest)).dropWhile Text.isSpacing = code ++ rest := by
    refine Text.dropWhile_run hIndent ?_
    rw [hCode]
    rintro _ ⟨⟩
    decide
  -- the lengths that the reader computes: up to the brace, and of the indent
  have hTake : (code ++ rest).length - (found.body ++ '}' :: rest).length + found.body.length + 1 =
      code.length := by
    simp only [List.length_append, List.length_cons]
    omega
  have hStop : (indent ++ (code ++ rest)).length - (code ++ rest).length = indent.length := by
    rw [List.length_append, Nat.add_sub_cancel_right]
  simp only [atLine?, hDrop, hHeader, Option.bind_eq_bind, Option.bind_some, h.isBody.bodyEnd?,
    Option.pure_def]
  rw [hTake, hStop, List.take_left, List.length_append, ← Nat.add_assoc]

/-- What is read as a declaration on a line of its own. -/
theorem atLine?_eq_some_iff :
    atLine? start t = some d ↔
      ∃ indent code rest found, t = indent ++ (code ++ rest) ∧
        (∀ c ∈ indent, Text.isSpacing c = true) ∧ NamedBody.Defines Text.isSpacing code found ∧
        d = ⟨found.name, start, code, start + (indent ++ code).length - 1⟩ := by
  constructor
  · intro h
    obtain ⟨indent, u, rfl, hIndent, hu⟩ := Text.exists_run Text.isSpacing t
    have hRead := h
    simp only [atLine?, Text.dropWhile_run hIndent hu, Option.bind_eq_bind,
      Option.bind_eq_some_iff] at hRead
    obtain ⟨header, hHeader, last, hLast, -⟩ := hRead
    -- spell out what the two readers have accepted
    obtain ⟨lead, gap, gap', rfl, hne, hLead, hWords⟩ :=
      (Header.definition?_eq_some_iff fun _ => Text.isBlank_of_isSpacing).mp hHeader
    obtain ⟨body, rest, hRest, rfl, hBody⟩ := Brace.bodyEnd?_eq_some_iff.mp hLast
    have hDefines : NamedBody.Defines Text.isSpacing
        (Header.typeKeyword ++ (lead ++ Header.spell header.name gap gap' (body ++ ['}'])))
        ⟨header.name, body⟩ :=
      ⟨⟨lead, gap, gap', rfl, hne, hLead, hWords⟩, hBody⟩
    have hSplit : Header.typeKeyword ++ (lead ++ Header.spell header.name gap gap' header.rest) =
        Header.typeKeyword ++ (lead ++ Header.spell header.name gap gap' (body ++ ['}'])) ++
          rest := by
      simp [Header.spell, hRest]
    -- the rest is what the reader makes of a definition
    refine ⟨indent, _, rest, _, by rw [hSplit], hIndent, hDefines, ?_⟩
    rw [hSplit, atLine?_of_defines hDefines hIndent, Option.some_inj] at h
    exact h.symm
  · rintro ⟨indent, code, rest, found, rfl, hIndent, hDefines, rfl⟩
    exact atLine?_of_defines hDefines hIndent start rest

/-! ## Members of groups -/

/-- What a step through a group cuts out as a member: all of the text behind the indent, up to the
brace that closes the member's body. -/
theorem eq_of_groupStep (h : groupStep start t = .member d last) :
    ∃ indent spec rest found, t = indent ++ (spec ++ rest) ∧
      (∀ c ∈ indent, Text.isSpacing c = true) ∧ last + 1 = (indent ++ spec).length ∧
      NamedBody.Defines Text.isSpacing (Header.typeKeyword ++ ' ' :: spec) found ∧
      d = ⟨found.name, start, Header.typeKeyword ++ ' ' :: spec, start + last⟩ := by
  obtain ⟨indent, name, gap, gap', body, rest, rfl, hIndent, hWords, hBody, rfl, rfl⟩ :=
    groupStep_eq_member_iff.mp h
  have hDefines : NamedBody.Defines Text.isSpacing
      (Header.typeKeyword ++ ' ' :: Header.spell name gap gap' (body ++ ['}'])) ⟨name, body⟩ :=
    ⟨⟨[' '], gap, gap', rfl, by simp, Text.isSpacing_space, hWords⟩, hBody⟩
  refine ⟨indent, Header.spell name gap gap' (body ++ ['}']), rest, _, ?_, hIndent,
    (Header.length_spell_concat indent body '}').symm, hDefines, rfl⟩
  rw [Header.spell_cons, List.append_assoc]

/-- Every member of a group is found by a step from some place in the text. -/
theorem exists_groupStep (h : d ∈ membersBehind skip start t) :
    ∃ before u last, t = before ++ u ∧ groupStep (start + before.length) u = .member d last := by
  -- a step behind one more character
  have later : ∀ {c : Char} {t : Text} {start : Nat},
      (∃ before u last, t = before ++ u ∧
        groupStep (start + 1 + before.length) u = .member d last) →
      ∃ before u last, c :: t = before ++ u ∧
        groupStep (start + before.length) u = .member d last := by
    rintro c _ start ⟨before, u, last, rfl, hStep⟩
    refine ⟨c :: before, u, last, rfl, ?_⟩
    rw [List.length_cons, Nat.add_comm before.length, ← Nat.add_assoc]
    exact hStep
  induction skip, start, t using membersBehind.induct with
  | case1 skip start => simp [membersBehind] at h
  | case2 skip start c t ih => exact later (ih h)
  | case3 start c t hStop => simp [membersBehind, hStop] at h
  -- a skipped member yields nothing, so the one looked for comes later
  | case4 start c t n hSkip ih =>
    simp only [membersBehind, hSkip] at h
    exact later (ih h)
  | case5 start c t e n hMember ih =>
    simp only [membersBehind, hMember, List.mem_cons] at h
    rcases h with rfl | h
    · exact ⟨[], c :: t, n, rfl, hMember⟩
    · exact later (ih h)

/-! ## All declarations -/

theorem exists_defines_of_ungrouped (hd : d ∈ ungrouped document) :
    ∃ body, NamedBody.Defines Text.isSpacing d.code ⟨d.name, body⟩ := by
  obtain ⟨⟨start, t⟩, -, hRead⟩ := List.mem_filterMap.mp hd
  obtain ⟨indent, code, rest, found, -, -, hDefines, rfl⟩ := atLine?_eq_some_iff.mp hRead
  exact ⟨found.body, hDefines⟩

theorem exists_defines_of_grouped (hd : d ∈ grouped document) :
    ∃ body, NamedBody.Defines Text.isSpacing d.code ⟨d.name, body⟩ := by
  obtain ⟨⟨start, t⟩, -, hd⟩ := List.mem_flatMap.mp hd
  simp only at hd
  split at hd
  · obtain ⟨before, u, last, -, hStep⟩ := exists_groupStep hd
    obtain ⟨indent, spec, rest, found, -, -, -, hDefines, rfl⟩ := eq_of_groupStep hStep
    exact ⟨found.body, hDefines⟩
  · simp at hd

/-- Every declaration of a document is a definition of its name, up to its closing brace. -/
theorem exists_defines (hd : d ∈ all document) :
    ∃ body, NamedBody.Defines Text.isSpacing d.code ⟨d.name, body⟩ :=
  (List.mem_append.mp hd).elim exists_defines_of_ungrouped exists_defines_of_grouped

end FieldHint.Declaration
