import FieldHint.Help.Provider
import FieldHint.Proofs.Declaration.Code
import FieldHint.Proofs.Description.Render

/-!
# Declarations — rendered and read back

The document is described by rendering one of its declarations with the comment above it. Reader
and renderer agree on every document: neither the comment nor the code has to be well-formed, as
long as they hold no fence. The fields read back are those between the braces of the declaration.

* `isProse_doc?` — the comment above a declaration can stand in front of a block;
* `ofText?_describe?` — the description is read as the declaration.
-/

namespace FieldHint.Declaration

variable {document : Text} {d : Declaration}

/-! ## Comments -/

theorem isProse_doc? (hFence : ∀ t ∈ d.doc? document, ¬ Fence.mark <:+: t) :
    ∀ t ∈ d.doc? document, IsProse t := by
  intro t ht
  obtain ⟨rfl, hne⟩ := Text.nonempty?_eq_some_iff.mp ht
  exact ⟨hne, Text.strip_strip, hFence _ ht⟩

/-! ## Reading back -/

/-- The description of a type by its document is read as its declaration: the name, the fields
between its first brace and its last character, and the comment above it. -/
theorem ofText?_describe? {context : Cursor.Context}
    (hFind : Declaration.find? document context.typeName = some d)
    (hCode : ¬ Fence.mark <:+: d.code) (hDoc : ∀ t ∈ d.doc? document, ¬ Fence.mark <:+: t)
    (language : Text) :
    ∃ markdown, (Provider.document language).describe? document context = some markdown ∧
      Struct.ofText? language markdown =
        some ⟨context.typeName, Field.ofBody (NamedBody.inner d.code), d.doc? document⟩ := by
  have hMem : d ∈ all document := List.mem_of_find?_eq_some hFind
  have hName : d.name = context.typeName := by simpa using List.find?_some hFind
  obtain ⟨body, hDefines⟩ := exists_defines hMem
  have hInner : NamedBody.inner d.code = body :=
    hDefines.inner fun _ => Text.isBlank_of_isSpacing
  -- without a fence, the code cannot end its block; its last character is a brace
  have hEnclosable : Fence.Enclosable d.code := by
    refine .of_no_mark hCode ?_
    obtain ⟨header, hSplit⟩ := hDefines.exists_header
    rw [hSplit, List.getLast?_concat]
    decide
  have hRead := Struct.ofText?_render (isProse_doc? hDoc) hEnclosable
    (hDefines.mono fun _ => Text.isBlank_of_isSpacing) language []
  refine ⟨render language (d.doc? document) d.code, ?_, ?_⟩
  · rw [Provider.describe?, describe?, hFind]
    rfl
  · rw [List.append_nil] at hRead
    rw [hRead, hName, hInner]

/-- The theorem at a member of a group, with a language that holds a line feed. -/
theorem ofText?_describe?_member :
    ∃ markdown, (Provider.document ['.', '*', '\n']).describe?
          (['t', 'y', 'p', 'e', '('] ++ '\n' :: ['/', '/', 'd'] ++ '\n' ::
            ['P', ' ', 's', 't', 'r', 'u', 'c', 't', '{', 'a', ' ', 'b', '}'])
          ⟨['P'], 0, 0⟩ = some markdown ∧
      Struct.ofText? ['.', '*', '\n'] markdown =
        some ⟨['P'], [⟨['a'], ['b'], none, none⟩], some ['d']⟩ :=
  ofText?_describe?
    (d := ⟨['P'], 10, ['t', 'y', 'p', 'e', ' ', 'P', ' ', 's', 't', 'r', 'u', 'c', 't', '{', 'a',
      ' ', 'b', '}'], 22⟩)
    (by decide) (by decide) (by rintro _ ⟨⟩; decide) ['.', '*', '\n']

end FieldHint.Declaration
