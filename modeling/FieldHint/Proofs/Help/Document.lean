import FieldHint.Help.Provider
import FieldHint.Proofs.Cursor.Literal
import FieldHint.Proofs.Declaration.Lookup
import FieldHint.Proofs.Help.Signature
import FieldHint.Proofs.Struct.RoundTrip

/-!
# Signature help — from a document alone

A document that declares a struct and later writes a literal of its type is all that signature help
needs. Each reader along the way hands on what was written: the literal gives the name and the
number of finished elements, the name gives the declaration with the comment above it, and the
rendered declaration gives the struct.

* `Provider.struct?_document` — the struct is read from its declaration in the document;
* `SignatureHelp.at?_of_atEnd` — the help is made of the literal and the struct, and of nothing
  else;
* `SignatureHelp.at?_document` — the help at a cursor in the literal.
-/

namespace FieldHint

/-! ## The struct -/

theorem Declaration.render_ne_nil (language : Text) (doc : Option Text) (code : Text) :
    render language doc code ≠ [] := by
  cases doc <;> simp [render, Fence.block, Fence.mark]

/-- A declaration that is the definition of a struct describes that struct. -/
theorem Provider.struct?_document {s : Struct} {d : Declaration} {document : Text}
    {context : Cursor.Context} (hs : s.WellFormed)
    (hFind : Declaration.find? document context.typeName = some d) (hCode : d.code = s.definition)
    (hDoc : d.doc? document = s.doc) (language : Text) :
    (Provider.document language).struct? language document context = some s := by
  have hRead := hs.ofText?_render language []
  rw [List.append_nil] at hRead
  rw [struct?, description?, describe?, Declaration.describe?, hFind, Option.map_some, hCode, hDoc,
    Option.bind_some, Text.nonempty?_of_ne_nil (Declaration.render_ne_nil _ _ _), Option.bind_some,
    hRead]

/-- What follows a definition starts behind a brace: no name reaches across. -/
theorem Struct.WellFormed.isIdentifierChar_behind {s : Struct} (hs : s.WellFormed) {t : Text}
    (ht : ∀ c ∈ t.getLast?, Cursor.isIdentifierChar c = false) (before : Text) :
    ∀ c ∈ (before ++ s.definition ++ t).getLast?, Cursor.isIdentifierChar c = false := by
  cases t with
  | nil =>
    obtain ⟨header, hHeader⟩ := hs.defines.exists_header
    rw [List.append_nil, hHeader, ← List.append_assoc, List.getLast?_concat]
    rintro _ ⟨⟩
    decide
  | cons c t =>
    rw [List.getLast?_append_of_ne_nil _ (by simp)]
    exact ht

/-! ## The help -/

/-- Whoever describes the type: a cursor inside a literal gets the help for the struct that the
description is read as. -/
theorem SignatureHelp.at?_of_atEnd {text after language : Text} {p : Provider}
    {context : Cursor.Context} {s : Struct} (hSite : Cursor.Site.atEnd text = .inside context)
    (hStruct : p.struct? language (text ++ after) context = some s) :
    SignatureHelp.at? language p (text ++ after) text.length =
      some (ofStruct s context.activeField) := by
  rw [at?, Cursor.context?_append, hSite]
  simp only [Cursor.Site.context?, Option.bind_eq_bind, Option.bind_some, hStruct]
  rfl

theorem SignatureHelp.nearest?_natCast (k : Nat) (fields : List Field) :
    nearest? k fields.length =
      if fields = [] then none else some (min k (fields.length - 1)) := by
  simp [nearest?]

/-- The help at a cursor in a literal of a type that the document declares. Comment lines above the
declaration document the signature, each field is a parameter with its comment, at the offsets of
its label in that of the signature, and the parameter highlighted is the one being written, or the
last one if there are more elements than fields. What else stands before, between and behind is
arbitrary: nothing may open a definition of the name before the declaration, and nothing may make
the name of the literal longer. -/
theorem SignatureHelp.at?_document {before between name p e : Text} {comments es : List Text}
    {fields : List Field} (hBefore : Declaration.EndsBlank before)
    (hAbsent : Header.Absent name before)
    (hComments : ∀ line ∈ comments, Comment.IsLine line ∧ ¬ Fence.mark <:+: line)
    (hName : Cursor.IsTypeName name) (hFields : ∀ f ∈ fields, f.WellFormed)
    (hQuote : ∀ f ∈ fields, '"' ∉ f.typeExpr)
    (hBetween : ∀ c ∈ between.getLast?, Cursor.isIdentifierChar c = false)
    (hes : ∀ e ∈ es, Cursor.IsElement e) (he : Cursor.IsElement e) (hp : p <+: e)
    (hOpen : Brace.depth p = 0) (language after : Text) :
    SignatureHelp.at? language (.document language)
        (before ++ comments.flatMap (· ++ ['\n']) ++ Struct.definition ⟨name, fields, none⟩ ++
          between ++ name ++ '{' :: (Cursor.finished es ++ p) ++ after)
        (before ++ comments.flatMap (· ++ ['\n']) ++ Struct.definition ⟨name, fields, none⟩ ++
          between ++ name ++ '{' :: (Cursor.finished es ++ p)).length =
      some {
        signatures := [{
          label := name ++ '{' ::
            Text.join [',', ' '] (fields.map fun f => f.name ++ ' ' :: f.typeExpr) ++ ['}']
          doc := Comment.textOf comments
          parameters := fields.mapIdx fun n f =>
            let start := name.length + 1 + (Signature.labelsBefore fields n).length
            ⟨start, start + (f.name ++ ' ' :: f.typeExpr).length, f.doc⟩ }]
        activeSignature := 0
        activeParameter :=
          if fields = [] then none else some (min es.length (fields.length - 1)) } := by
  have hs : Struct.WellFormed ⟨name, fields, Comment.textOf comments⟩ :=
    ⟨hName.ne_nil, fun c hc => Text.isWord_of_isIdentifierChar (hName.chars c hc), hFields, hQuote,
      Comment.isProse_textOf fun line hLine => (hComments line hLine).2⟩
  have hLines : ∀ line ∈ comments, Comment.IsLine line := fun line hLine => (hComments line hLine).1
  -- the cursor: the name of the literal is not longer than it was written
  obtain ⟨start, hSite⟩ : ∃ start, Cursor.Site.atEnd
      (before ++ comments.flatMap (· ++ ['\n']) ++ Struct.definition ⟨name, fields, none⟩ ++
        between ++ name ++ '{' :: (Cursor.finished es ++ p)) =
      .inside ⟨name, start, es.length⟩ := by
    have hNoGap : ∀ c ∈ ([] : Text), Text.isBlank c = true := by simp
    have hEnds := hs.isIdentifierChar_behind hBetween (before ++ comments.flatMap (· ++ ['\n']))
    have hLiteral := Cursor.atEnd_literal hEnds hName hNoGap hes he hp hOpen
    rw [List.append_nil] at hLiteral
    exact ⟨_, hLiteral⟩
  -- the name: its first declaration is the one below the comment lines
  obtain ⟨d, hFind, hCode, hDoc⟩ := Declaration.find?_documented hBefore hAbsent hLines hs.defines
    (between ++ (name ++ ('{' :: (Cursor.finished es ++ p) ++ after)))
  -- the declaration: its markdown is read as the struct
  have hStruct : (Provider.document language).struct? language
      (before ++ comments.flatMap (· ++ ['\n']) ++ Struct.definition ⟨name, fields, none⟩ ++
        between ++ name ++ '{' :: (Cursor.finished es ++ p) ++ after)
        ⟨name, start, es.length⟩ =
      some ⟨name, fields, Comment.textOf comments⟩ := by
    rw [List.append_assoc _ ('{' :: _), List.append_assoc _ name, List.append_assoc _ between,
      List.append_assoc _ (Struct.definition _)]
    exact Provider.struct?_document hs hFind hCode hDoc language
  rw [at?_of_atEnd hSite hStruct, SignatureHelp.ofStruct, nearest?_natCast, Signature.ofStruct,
    Signature.parametersFrom_eq_mapIdx]
  rfl

/-- The theorem at a literal that breaks off in the string of its second element. -/
theorem SignatureHelp.at?_document_broken_off :
    SignatureHelp.at? Struct.defaultLanguage (.document Struct.defaultLanguage)
        ([] ++ [['/', '/', 'd']].flatMap (· ++ ['\n']) ++
          Struct.definition ⟨['P'], Struct.thorny.fields, none⟩ ++ ['{', '\n'] ++ ['P'] ++
          '{' :: (Cursor.finished [['1']] ++ ['(', '"', ',']) ++ ['}'])
        ([] ++ [['/', '/', 'd']].flatMap (· ++ ['\n']) ++
          Struct.definition ⟨['P'], Struct.thorny.fields, none⟩ ++ ['{', '\n'] ++ ['P'] ++
          '{' :: (Cursor.finished [['1']] ++ ['(', '"', ','])).length =
      some {
        signatures := [{
          label := ['P', '{', 'a', ' ', 's', '{', 'x', ';', 'y', '}', ',', ' ', 'b', ' ', 'T', '}']
          doc := some ['d']
          parameters := [⟨2, 10, some ['{', ';']⟩, ⟨12, 15, none⟩] }]
        activeSignature := 0
        activeParameter := some 1 } := by
  have hComment : Comment.IsLine ['/', '/', 'd'] ∧ ¬ Fence.mark <:+: ['/', '/', 'd'] := by
    refine ⟨⟨?_, by decide⟩, by decide⟩
    exact List.forall_mem_cons.mpr ⟨by decide, List.forall_mem_cons.mpr
      ⟨by decide, List.forall_mem_singleton.mpr (by decide)⟩⟩
  have hName : Cursor.IsTypeName ['P'] :=
    ⟨⟨'P', rfl, by decide⟩, List.forall_mem_singleton.mpr (by decide)⟩
  have hNumber : Cursor.IsElement ['1'] := .plain (by decide) .nil
  have hString : Cursor.Interpreted [','] := .char (by decide) .nil
  have hCall : Cursor.IsElement ['(', '"', ',', '"', ')'] :=
    .group (o := '(') (c := ')') (s := ['"', ',', '"']) (t := []) (by decide)
      (.interpreted (t := []) hString .nil) .nil
  have hAbsent : Header.Absent ['P'] [] :=
    List.forall_mem_singleton.mpr Header.Opens.not_nil
  exact SignatureHelp.at?_document (Or.inl rfl) hAbsent
    (List.forall_mem_singleton.mpr hComment) hName Struct.wellFormed_thorny.fields
    Struct.wellFormed_thorny.no_quote (by rintro _ ⟨⟩; decide)
    (List.forall_mem_singleton.mpr hNumber) hCall ⟨['"', ')'], rfl⟩ (by decide)
    Struct.defaultLanguage ['}']

end FieldHint
