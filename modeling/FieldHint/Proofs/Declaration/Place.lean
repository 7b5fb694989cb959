import FieldHint.Proofs.Declaration.Code
import FieldHint.Proofs.Text.Lines

/-!
# Declarations — their place in a document

A declaration is found by one reader and its body is found again by another, in the text that was
cut out. Both see the same body, for the search for a closing brace never looks behind the brace
that it finds:

* `exists_isPart` — a declaration is a part of its document, perhaps with the keyword in front;
* `IsPart.exists_cutAt` — at the first brace of that part, the document opens the body;
* `find?_code_of_mem` — so the body that is read back is the text between the two braces of the
  document, however malformed that is.
-/

namespace FieldHint.Declaration

variable {document body : Text} {d : Declaration}

/-! ## Parts of a document -/

/-- The declaration is a part of the document, behind an indent. In front of a member of a group
there is a keyword that the document does not have there. -/
def IsPart (document : Text) (d : Declaration) : Prop :=
  ∃ before indent keyword spec rest, document = before ++ (indent ++ (spec ++ rest)) ∧
    d.start = before.length ∧ d.stop + 1 = before.length + (indent ++ spec).length ∧
    d.code = keyword ++ spec ∧ (keyword = [] ∨ keyword = Header.typeKeyword ++ [' ']) ∧
    ∀ c ∈ indent, Text.isSpacing c = true

theorem isPart_of_ungrouped (hd : d ∈ ungrouped document) : IsPart document d := by
  obtain ⟨⟨start, t⟩, hLine, hRead⟩ := List.mem_filterMap.mp hd
  obtain ⟨before, rfl, rfl⟩ := Text.exists_of_mem_lineStarts hLine
  obtain ⟨indent, code, rest, found, rfl, hIndent, hDefines, rfl⟩ := atLine?_eq_some_iff.mp hRead
  refine ⟨before, indent, [], code, rest, rfl, rfl, ?_, rfl, Or.inl rfl, hIndent⟩
  -- the brace is the last character, so there is one
  obtain ⟨header, rfl⟩ := hDefines.exists_header
  simp only [List.length_append, List.length_cons]
  omega

theorem isPart_of_grouped (hd : d ∈ grouped document) : IsPart document d := by
  obtain ⟨⟨start, t⟩, hLine, hd⟩ := List.mem_flatMap.mp hd
  obtain ⟨before, rfl, rfl⟩ := Text.exists_of_mem_lineStarts hLine
  simp only at hd
  split at hd
  · generalize (Text.firstLine t).length = n at hd
    obtain ⟨between, u, last, hRest, hStep⟩ := exists_groupStep hd
    obtain ⟨indent, spec, rest, found, rfl, hIndent, hLast, -, rfl⟩ := eq_of_groupStep hStep
    -- a member is not empty, so the line that opens its group ends before the document does
    have hLength : n + 1 ≤ t.length := by
      have hDrop := congrArg List.length hRest
      simp only [List.length_drop, List.length_append] at hDrop hLast
      omega
    have hBefore : (before ++ (t.take (n + 1) ++ between)).length =
        before.length + n + 1 + between.length := by
      rw [List.length_append, List.length_append, List.length_take_of_le hLength]
      omega
    refine ⟨before ++ (t.take (n + 1) ++ between), indent, Header.typeKeyword ++ [' '], spec, rest,
      ?_, hBefore.symm, ?_, by simp, Or.inr rfl, hIndent⟩
    · rw [List.append_assoc, List.append_assoc, ← hRest, List.take_append_drop]
    · rw [hBefore, ← hLast]
      exact Nat.add_assoc _ _ _
  · simp at hd

theorem isPart_of_mem (hd : d ∈ all document) : IsPart document d :=
  (List.mem_append.mp hd).elim isPart_of_ungrouped isPart_of_grouped

/-! ## The braces around the body -/

/-- The brace that opens the body is the first one of the part, and the first one behind the indent
in the document. -/
theorem IsPart.exists_lead (h : IsPart document d)
    (hDefines : NamedBody.Defines Text.isSpacing d.code ⟨d.name, body⟩) :
    ∃ before indent keyword lead rest,
      document = before ++ (indent ++ (lead ++ '{' :: (body ++ '}' :: rest))) ∧
        d.start = before.length ∧
        d.stop = before.length + indent.length + lead.length + 1 + body.length ∧
        d.code = keyword ++ (lead ++ '{' :: (body ++ ['}'])) ∧
        (keyword = [] ∨ keyword = Header.typeKeyword ++ [' ']) ∧ '{' ∉ indent ++ lead := by
  obtain ⟨before, indent, keyword, spec, rest, rfl, hStart, hStop, hCode, hKeyword, hIndent⟩ := h
  obtain ⟨header, hHeader, hFirst⟩ := hDefines.exists_lead fun _ => Text.isBlank_of_isSpacing
  have hNoBrace : '{' ∉ keyword := by
    rcases hKeyword with rfl | rfl <;> decide
  have hIndentNoBrace : '{' ∉ indent := Text.not_mem_of_class hIndent (by decide)
  rw [hCode] at hHeader
  dsimp only at hHeader
  obtain ⟨lead, rfl, hLead⟩ := Text.exists_append_cons_of_append_eq hNoBrace hFirst hHeader
  simp only [List.length_append, List.length_cons, List.length_nil] at hStop
  refine ⟨before, indent, keyword, lead, rest, by simp, hStart, by omega, hCode, hKeyword, ?_⟩
  rw [List.mem_append, not_or]
  exact ⟨hIndentNoBrace, hLead⟩

/-- The declaration is cut out at an opening brace of the document: the first one at its start or
behind, closed by the brace at its end, with the body of the declaration directly between the two.
The text of the declaration starts before the brace and ends with the closing one. -/
structure CutAt (document : Text) (d : Declaration) (brace : Nat) : Prop where
  start_le : d.start ≤ brace
  first : '{' ∉ document.slice d.start brace
  opens : document[brace]? = some '{'
  closing : Brace.closing? document brace = some d.stop
  closes : document[d.stop]? = some '}'
  body : document.slice (brace + 1) d.stop = NamedBody.inner d.code
  code : ∃ k, d.start ≤ k ∧ k ≤ brace ∧
    (d.code = document.slice k (d.stop + 1) ∨
      d.code = Header.typeKeyword ++ ' ' :: document.slice k (d.stop + 1))

theorem IsPart.exists_cutAt (h : IsPart document d)
    (hDefines : NamedBody.Defines Text.isSpacing d.code ⟨d.name, body⟩) :
    ∃ brace, CutAt document d brace := by
  obtain ⟨before, indent, keyword, lead, rest, hDocument, hStart, hStop, hCode, hKeyword, hFirst⟩ :=
    h.exists_lead hDefines
  have hBody : Brace.IsBody body := hDefines.isBody
  -- the same document, cut in front of what each of the fields speaks of
  have hAtLead : document = before ++ ((indent ++ lead) ++ '{' :: (body ++ '}' :: rest)) := by
    simp [hDocument]
  have hAtOpen : document = (before ++ indent ++ lead) ++ '{' :: (body ++ '}' :: rest) := by
    simp [hDocument]
  have hAtBody : document = (before ++ indent ++ lead ++ ['{']) ++ (body ++ '}' :: rest) := by
    simp [hDocument]
  have hAtClose : document = (before ++ indent ++ lead ++ '{' :: body) ++ '}' :: rest := by
    simp [hDocument]
  have hAtCode : document = (before ++ indent) ++ ((lead ++ '{' :: (body ++ ['}'])) ++ rest) := by
    simp [hDocument]
  have hBrace : (before ++ indent ++ lead).length =
      before.length + indent.length + lead.length := by
    rw [List.length_append, List.length_append]
  refine ⟨before.length + indent.length + lead.length, ?_⟩
  exact {
    start_le := by omega
    first := by
      rw [Text.slice_of_append hAtLead hStart (by rw [List.length_append, Nat.add_assoc])]
      exact hFirst
    opens := Text.getElem?_of_append hAtOpen hBrace.symm
    closing := by
      have hClosing := hBody.closing? (before ++ indent ++ lead) rest
      rw [← hAtOpen, hBrace] at hClosing
      rw [hClosing, hStop]
    closes := by
      refine Text.getElem?_of_append hAtClose ?_
      rw [List.length_append, List.length_cons, hBrace]
      omega
    body := by
      rw [hDefines.inner fun _ => Text.isBlank_of_isSpacing]
      refine Text.slice_of_append hAtBody ?_ ?_
      · rw [List.length_append, List.length_singleton, hBrace]
      · rw [List.length_append, List.length_singleton, hBrace, hStop]
    code := by
      refine ⟨before.length + indent.length, by omega, by omega, ?_⟩
      rw [Text.slice_of_append hAtCode List.length_append.symm, hCode]
      · rcases hKeyword with rfl | rfl
        · exact Or.inl rfl
        · exact Or.inr (by simp)
      · simp only [List.length_append, List.length_cons, List.length_nil]
        omega }

/-- Whatever a document holds, every declaration that is found in it is read back: it ends with a
brace, the body that is found in it stands between its first brace and that one, and the document
has this body directly between the two braces at which the declaration was cut out. -/
theorem find?_code_of_mem (hd : d ∈ all document) :
    d.code.getLast? = some '}' ∧
      NamedBody.find? d.code = some ⟨d.name, NamedBody.inner d.code⟩ ∧
      ∃ brace, CutAt document d brace := by
  obtain ⟨body, hDefines⟩ := exists_defines hd
  refine ⟨?_, ?_, (isPart_of_mem hd).exists_cutAt hDefines⟩
  · obtain ⟨header, hHeader⟩ := hDefines.exists_header
    rw [hHeader, List.getLast?_concat]
  · have hFound := (hDefines.mono fun _ => Text.isBlank_of_isSpacing).find? []
    rw [List.append_nil] at hFound
    rw [hFound, hDefines.inner fun _ => Text.isBlank_of_isSpacing]

/-- A body that holds the brace which closes it, too, in a raw string and in a comment. -/
def thornyBody : Text := ['a', ' ', '\x60', '}', '\x60', ' ', '/', '/', '}', '\n']

/-- A member of a group, behind another one on its line, in a document with a brace too many and a
member that is never closed. -/
def thornyMember : Declaration :=
  ⟨['P'], 11, Header.typeKeyword ++ ' ' :: Header.spell ['P'] [' '] [] (thornyBody ++ ['}']), 31⟩

def thornyDocument : Text :=
  '}' :: '\n' :: Header.typeKeyword ++ ['(', '\n', 'A', '{', '}', '\t'] ++
    Header.spell ['P'] [' '] [] (thornyBody ++ ['}']) ++ Header.spell ['C'] [' '] [] []

theorem find?_code_of_mem_thorny :
    thornyMember ∈ all thornyDocument ∧ thornyMember.code.getLast? = some '}' ∧
      NamedBody.find? thornyMember.code = some ⟨['P'], thornyBody⟩ ∧
      ∃ brace, CutAt thornyDocument thornyMember brace := by
  have hMem : thornyMember ∈ all thornyDocument := by decide
  have hInner : NamedBody.inner thornyMember.code = thornyBody := by decide
  obtain ⟨hLast, hFound, hCut⟩ := find?_code_of_mem hMem
  rw [hInner] at hFound
  exact ⟨hMem, hLast, hFound, hCut⟩

end FieldHint.Declaration
