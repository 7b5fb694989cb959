import FieldHint.Proofs.Brace.Span
import FieldHint.Proofs.Struct.Header

/-!
# Definitions — cut out and read again

`Defines` says that a text is the definition of a named body, from its keyword to the brace that
closes the body. Such texts are what the readers cut out of documents and what they write, and
nothing else has to be known of them:

* `Defines.find?` — the definition is found at the start of a text, whatever follows it;
* `Defines.exists_lead` — no brace stands in front of the one that opens the body;
* `Defines.inner` — the body is what stands between the first brace and the last.
-/

namespace FieldHint.NamedBody

variable {blank : Char → Bool} {code : Text} {found : NamedBody}

/-- The text is the definition of the named body, its words parted by blanks of a class. -/
structure Defines (blank : Char → Bool) (code : Text) (found : NamedBody) : Prop where
  spelled : ∃ lead gap gap',
    code = Header.typeKeyword ++ (lead ++ Header.spell found.name gap gap' (found.body ++ ['}'])) ∧
      lead ≠ [] ∧ (∀ c ∈ lead, blank c = true) ∧ Header.Words blank found.name gap gap'
  isBody : Brace.IsBody found.body

/-- What stands between the first opening brace of a text and its last character. -/
def inner (code : Text) : Text := ((code.dropWhile (· ≠ '{')).drop 1).dropLast

namespace Defines

theorem mono {wide : Char → Bool} (h : Defines blank code found)
    (hWide : ∀ c, blank c = true → wide c = true) : Defines wide code found where
  spelled := by
    obtain ⟨lead, gap, gap', hSpell, hne, hLead, hWords⟩ := h.spelled
    exact ⟨lead, gap, gap', hSpell, hne, fun c hc => hWide c (hLead c hc), hWords.mono hWide⟩
  isBody := h.isBody

/-- A definition is read as itself, whatever follows it. -/
theorem definition? (h : Defines blank code found)
    (hBlank : ∀ c, blank c = true → Text.isBlank c = true) (rest : Text) :
    Header.definition? blank (code ++ rest) =
      some ⟨found.name, found.body ++ '}' :: rest⟩ := by
  obtain ⟨lead, gap, gap', rfl, hne, hLead, hWords⟩ := h.spelled
  rw [Header.definition?_eq_some_iff hBlank]
  exact ⟨lead, gap, gap', by simp [Header.spell], hne, hLead, hWords⟩

/-- A definition is found where the text starts, whatever follows it. -/
theorem find? (h : Defines Text.isBlank code found) (rest : Text) :
    NamedBody.find? (code ++ rest) = some found := by
  have hHeader := h.definition? (fun _ => id) rest
  -- the brace search goes no further than the body's own brace
  have hRead : (Header.definition? Text.isBlank (code ++ rest)).bind ofHeader? = some found := by
    rw [hHeader, Option.bind_some, ofHeader?, Header.body?, h.isBody.bodyEnd?]
    simp
  rw [NamedBody.find?]
  cases hCode : code ++ rest with
  | nil => simp [hCode, Header.definition?, Text.after?, Header.typeKeyword] at hHeader
  | cons c t =>
    rw [hCode] at hRead
    simp [firstDefinition?, hRead]

/-- Up to the brace that opens its body, a definition holds no brace. -/
theorem exists_lead (h : Defines blank code found)
    (hBlank : ∀ c, blank c = true → Text.isBlank c = true) :
    ∃ lead, code = lead ++ '{' :: (found.body ++ ['}']) ∧ '{' ∉ lead := by
  obtain ⟨lead, gap, gap', rfl, -, hLead, hWords⟩ := h.spelled
  have hGap : ∀ {g : Text}, (∀ c ∈ g, blank c = true) → '{' ∉ g := fun hg =>
    Text.not_mem_of_class (fun c hc => hBlank c (hg c hc)) (by decide)
  have hName : '{' ∉ found.name := Text.not_mem_of_class hWords.isWord_name (by decide)
  refine ⟨Header.typeKeyword ++ (lead ++ (found.name ++ (gap ++ (Header.structKeyword ++ gap')))),
    by simp [Header.spell], ?_⟩
  simp only [List.mem_append, not_or]
  exact ⟨by decide, hGap hLead, hName, hGap hWords.blank_gap, by decide, hGap hWords.blank_gap'⟩

theorem inner (h : Defines blank code found)
    (hBlank : ∀ c, blank c = true → Text.isBlank c = true) :
    NamedBody.inner code = found.body := by
  obtain ⟨lead, rfl, hLead⟩ := h.exists_lead hBlank
  rw [NamedBody.inner, Text.dropWhile_run (Text.forall_ne_of_not_mem hLead) (by simp),
    List.drop_one, List.tail_cons, List.dropLast_concat]

/-- A definition starts with its keyword and ends with its closing brace. -/
theorem exists_header (h : Defines blank code found) :
    ∃ header, code = 't' :: header ++ found.body ++ ['}'] := by
  obtain ⟨lead, gap, gap', rfl, -⟩ := h.spelled
  exact ⟨['y', 'p', 'e'] ++ lead ++ found.name ++ gap ++ Header.structKeyword ++ gap' ++ ['{'],
    by simp [Header.spell, Header.typeKeyword]⟩

end Defines

end FieldHint.NamedBody
