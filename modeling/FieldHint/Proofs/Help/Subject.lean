import FieldHint.Help.Provider
import FieldHint.Proofs.Declaration.Code
import FieldHint.Proofs.Description.Render

/-!
# Signature help — whose signature it is

Help at a cursor is looked up by the name of the literal's type, but the name that it shows is read
from a description, and a description is searched anew. A block that the comment above the
declaration opens is found before the block with the declaration; and a line of the declaration that
starts with a fence cuts that block short. Where neither happens, the help is for the declaration:

* `shows_another_type` — help for a type that only a comment mentions;
* `exists_declaration_of_at?` — help comes from a declaration of the name at the cursor;
* `ofText_render_doc?` — without such fences, the description has the declaration as its code;
* `label_of_at?` — so the signature is that of the type at the cursor.
-/

namespace FieldHint

/-! ## What is rendered -/

/-- No line of a declaration after its first starts with a fence. -/
def Declaration.Unfenced (d : Declaration) : Prop :=
  ∀ line, '\n' :: line <:+ d.code → ¬ Fence.mark <+: line.dropWhile Text.isSpacing

namespace Declaration

variable {document language : Text} {d : Declaration}

/-- A declaration ends with a brace, so only its lines can keep it out of a block. -/
theorem enclosable (hMem : d ∈ all document) (h : d.Unfenced) : Fence.Enclosable d.code where
  no_fence := h
  no_return := by
    obtain ⟨body, hDefines⟩ := exists_defines hMem
    obtain ⟨header, hSplit⟩ := hDefines.exists_header
    rw [hSplit, List.getLast?_concat]
    decide

/-- The parts of a rendered declaration are its code and the comment above it, if no block opens in
the comment. -/
theorem ofText_render_doc? (hMem : d ∈ all document) (hLanguage : '\n' ∉ language)
    (hDoc : ∀ t ∈ d.doc? document, ¬ Fence.OpensIn language t) (hCode : d.Unfenced) :
    Description.ofText language (render language (d.doc? document) d.code) =
      ⟨d.code, d.doc? document⟩ := by
  have hEnclosable := enclosable hMem hCode
  rw [← List.append_nil (render language (d.doc? document) d.code)]
  refine Description.ofText_render_of_find? hEnclosable fun t ht => ?_
  obtain ⟨rfl, hne⟩ := Text.nonempty?_eq_some_iff.mp ht
  exact ⟨hne, Text.strip_strip,
    Fence.find?_block_of_not_opensIn hLanguage (hDoc _ ht) hEnclosable⟩

/-- Such a description is read as the declared struct. -/
theorem ofText?_render_doc? (hMem : d ∈ all document) (hLanguage : '\n' ∉ language)
    (hDoc : ∀ t ∈ d.doc? document, ¬ Fence.OpensIn language t) (hCode : d.Unfenced) :
    Struct.ofText? language (render language (d.doc? document) d.code) =
      some ⟨d.name, Field.ofBody (NamedBody.inner d.code), d.doc? document⟩ := by
  obtain ⟨body, hDefines⟩ := exists_defines hMem
  have hInner : NamedBody.inner d.code = body :=
    hDefines.inner fun _ => Text.isBlank_of_isSpacing
  have hFind : NamedBody.find? d.code = some ⟨d.name, body⟩ := by
    have := (hDefines.mono fun _ => Text.isBlank_of_isSpacing).find? []
    rwa [List.append_nil] at this
  rw [Struct.ofText?, ofText_render_doc? hMem hLanguage hDoc hCode, Description.struct?, hFind,
    hInner]
  rfl

end Declaration

/-! ## The help -/

namespace SignatureHelp

/-- A document that declares `P`, below a comment that holds a block with the definition of `Q`. -/
def quotingDocument : Text :=
  ("// ```go\n" ++ "// type Q struct\x7b\x7d\n" ++ "// ```\n" ++ "type P struct\x7ba b\x7d\n" ++
    "P\x7b").toList

/-- A document that declares `P` with a field `A`, and then a remark of three lines, the second of
which starts with a fence. -/
def remarkingDocument : Text :=
  ("type P struct\x7b A struct\x7b\x7d\n" ++ "/*\n" ++ "``````\n" ++ "*/\x7d\n" ++ "P\x7b").toList

/-- Help for a type that is not the one at the cursor: in the first document it is for the type that
the comment mentions, in the second for a field of the declaration that was cut short. -/
theorem shows_another_type :
    ((Cursor.context? quotingDocument quotingDocument.length).map (·.typeName) = some ['P'] ∧
      (at? Struct.defaultLanguage (.document Struct.defaultLanguage) quotingDocument
        quotingDocument.length).map (·.signatures.map (·.label)) = some [['Q', '{', '}']]) ∧
    (Cursor.context? remarkingDocument remarkingDocument.length).map (·.typeName) = some ['P'] ∧
      (at? Struct.defaultLanguage (.document Struct.defaultLanguage) remarkingDocument
        remarkingDocument.length).map (·.signatures.map (·.label)) = some [['A', '{', '}']] := by
  refine ⟨⟨?_, ?_⟩, ?_, ?_⟩ <;> decide +kernel

variable {document language : Text} {cursor : Int} {help : SignatureHelp}

/-- Help that comes from the document itself: there is a literal at the cursor, the document
declares its type, and the help is made of what the rendered declaration is read as. -/
theorem exists_declaration_of_at?
    (h : at? language (.document language) document cursor = some help) :
    ∃ context d s, Cursor.context? document cursor = some context ∧
      Declaration.find? document context.typeName = some d ∧
      Struct.ofText? language (Declaration.render language (d.doc? document) d.code) = some s ∧
      help = ofStruct s context.activeField := by
  simp only [at?, Option.bind_eq_bind, Option.bind_eq_some_iff, Option.pure_def,
    Option.some_inj] at h
  obtain ⟨context, hContext, s, hStruct, rfl⟩ := h
  -- the description is a rendered declaration
  simp only [Provider.struct?, Provider.description?, Provider.describe?, Declaration.describe?,
    Option.bind_eq_some_iff, Option.map_eq_some_iff, Text.nonempty?_eq_some_iff] at hStruct
  obtain ⟨_, ⟨_, ⟨d, hFind, rfl⟩, rfl, -⟩, hRead⟩ := hStruct
  exact ⟨context, d, s, hContext, hFind, hRead, rfl⟩

/-- The label of a struct starts with its name and a brace. -/
theorem name_prefix_labelOf (s : Struct) : s.name ++ ['{'] <+: Signature.labelOf s :=
  ⟨Text.join Signature.separator (s.fields.map Field.label) ++ ['}'], by simp [Signature.labelOf]⟩

/-- Help from the document itself is for the type of the literal at the cursor: the name is that of
the literal, the fields are those of the first declaration of the name, and the comment above it is
the documentation. This holds unless a block opens in that comment, or a line of the declaration
starts with a fence. -/
theorem label_of_at?
    (hHelp : at? Struct.defaultLanguage (.document Struct.defaultLanguage) document cursor =
      some help) :
    ∃ context d, Cursor.context? document cursor = some context ∧
      Declaration.find? document context.typeName = some d ∧
      ((∀ t ∈ d.doc? document, ¬ Fence.OpensIn Struct.defaultLanguage t) → d.Unfenced →
        ∃ signature, help.signatures = [signature] ∧
          context.typeName ++ ['{'] <+: signature.label ∧
          signature = Signature.ofStruct
            ⟨context.typeName, Field.ofBody (NamedBody.inner d.code), d.doc? document⟩) := by
  obtain ⟨context, d, s, hContext, hFind, hRead, rfl⟩ := exists_declaration_of_at? hHelp
  refine ⟨context, d, hContext, hFind, fun hDoc hCode => ?_⟩
  have hMem : d ∈ Declaration.all document := List.mem_of_find?_eq_some hFind
  have hName : d.name = context.typeName := by simpa using List.find?_some hFind
  -- what the parser finds is the declaration, so the struct has the name that was looked up
  rw [Declaration.ofText?_render_doc? hMem (by decide) hDoc hCode, Option.some_inj, hName] at hRead
  subst hRead
  exact ⟨_, rfl, name_prefix_labelOf ⟨context.typeName, _, _⟩, rfl⟩

/-- A document whose comment holds the language behind a fence, but opens no block. -/
def mentioningDocument : Text :=
  ("// ```gofmt\n" ++ "type P struct\x7ba b\x7d\n" ++ "P\x7b").toList

/-- The declaration in that document. -/
def mentioningDeclaration : Declaration := ⟨['P'], 12, ("type P struct\x7ba b\x7d").toList, 29⟩

/-- The help at the end of that document. -/
def mentioningHelp : SignatureHelp where
  signatures := [⟨['P', '{', 'a', ' ', 'b', '}'], some "```gofmt".toList, [⟨2, 5, none⟩]⟩]
  activeParameter := some 0

/-- The theorem at that document. -/
theorem label_of_at?_mentioning :
    at? Struct.defaultLanguage (.document Struct.defaultLanguage) mentioningDocument 33 =
        some mentioningHelp ∧
      ∃ signature, mentioningHelp.signatures = [signature] ∧ ['P'] ++ ['{'] <+: signature.label ∧
        signature = Signature.ofStruct
          ⟨['P'], Field.ofBody (NamedBody.inner mentioningDeclaration.code),
            mentioningDeclaration.doc? mentioningDocument⟩ := by
  have hHelp : at? Struct.defaultLanguage (.document Struct.defaultLanguage) mentioningDocument 33 =
      some mentioningHelp := by
    decide +kernel
  obtain ⟨context, d, hContext, hFind, hLabel⟩ := label_of_at? hHelp
  have hLiteral : Cursor.context? mentioningDocument 33 = some ⟨['P'], 31, 0⟩ := by decide +kernel
  obtain rfl := Option.some_inj.mp (hContext.symm.trans hLiteral)
  have hDeclaration : Declaration.find? mentioningDocument ['P'] = some mentioningDeclaration := by
    decide +kernel
  obtain rfl := Option.some_inj.mp (hFind.symm.trans hDeclaration)
  have hNoBlock : ∀ t ∈ mentioningDeclaration.doc? mentioningDocument,
      ¬ Fence.OpensIn Struct.defaultLanguage t := by
    have hComment : mentioningDeclaration.doc? mentioningDocument = some "```gofmt".toList := by
      decide +kernel
    rw [hComment]
    rintro _ ⟨⟩
    decide +kernel
  have hOneLine : mentioningDeclaration.Unfenced := by
    intro line hLine
    have hFeed : '\n' ∉ mentioningDeclaration.code := by decide
    exact absurd (hLine.subset List.mem_cons_self) hFeed
  exact ⟨hHelp, hLabel hNoBlock hOneLine⟩

end SignatureHelp

end FieldHint
