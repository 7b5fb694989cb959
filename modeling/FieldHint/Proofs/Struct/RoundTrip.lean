import FieldHint.Proofs.Body.Line
import FieldHint.Proofs.Description.Render

/-!
# Structs — written as markdown and read back

`Struct.markdown` writes a struct as its documentation and a block that holds its definition, one
line for each field. `Struct.WellFormed` says of which structs that text is a faithful account.
Their tags, comments and documentation may hold braces, semicolons and quotes, which none of the
readers may count.

* `WellFormed.defines` — the text in the block is a definition of the struct;
* `WellFormed.enclosable` — no line of it looks like the end of the block;
* `ofText?_markdown` — the markdown is read as the struct, whatever prose follows it.
-/

namespace FieldHint

variable {fields : List Field} {s : Struct} {language : Text}

/-! ## Lines in a block -/

/-- No line of a body looks like a fence: it starts with a name, or it is the closing brace. -/
theorem Field.no_fence_lines (h : ∀ f ∈ fields, f.WellFormed) :
    ¬ Fence.mark <+: (lines fields ++ ['}']).dropWhile Text.isSpacing := by
  have hHead : ∀ c ∈ (lines fields ++ ['}']).head?, Text.isSpacing c = false ∧ c ≠ '\x60' := by
    cases fields with
    | nil =>
      rintro _ ⟨⟩
      decide
    | cons f fields =>
      have hf := h f List.mem_cons_self
      intro c hc
      have hMem : c ∈ f.name := by
        rw [lines, List.flatMap_cons, line, List.append_assoc, List.append_assoc, List.append_assoc,
          List.head?_append_of_ne_nil _ hf.name.ne_nil] at hc
        exact List.mem_of_mem_head? hc
      -- the line starts with a word character, which is neither a blank nor a backtick
      constructor
      · by_contra hSpacing
        rw [Bool.not_eq_false] at hSpacing
        have := Text.isWord_of_isBlank (Text.isBlank_of_isSpacing hSpacing)
        rw [hf.name.chars c hMem] at this
        exact Bool.false_ne_true this.symm
      · rintro rfl
        exact hf.name.not_mem (by decide) hMem
  rw [Text.dropWhile_eq_self fun c hc => (hHead c hc).1]
  rintro ⟨t, ht⟩
  exact (hHead '\x60' (by rw [← ht]; rfl)).2 rfl

theorem Field.enclosable_lines (h : ∀ f ∈ fields, f.WellFormed) :
    Fence.Enclosable (lines fields ++ ['}']) := by
  induction fields with
  | nil => exact .of_no_mark (by decide) (by decide)
  | cons f fields ih =>
    have hTail : ∀ g ∈ fields, g.WellFormed := fun g hg => h g (List.mem_cons_of_mem _ hg)
    have hSplit : lines (f :: fields) ++ ['}'] = f.line ++ '\n' :: (lines fields ++ ['}']) := by
      simp [lines]
    rw [hSplit]
    exact (ih hTail).line (h f List.mem_cons_self).no_newline (no_fence_lines hTail)

namespace Struct

/-! ## Markdown of a struct -/

/-- The definition of a struct, with a line for each field. -/
def definition (s : Struct) : Text :=
  Header.typeKeyword ++
    ([' '] ++ Header.spell s.name [' '] [' '] ('\n' :: Field.lines s.fields ++ ['}']))

/-- A struct as a block of a language, with its documentation in front. -/
def markdown (language : Text) (s : Struct) : Text :=
  Declaration.render language s.doc s.definition

/-- A struct that its markdown is a faithful account of. -/
structure WellFormed (s : Struct) : Prop where
  name_ne_nil : s.name ≠ []
  isWord_name : ∀ c ∈ s.name, Text.isWord c = true
  fields : ∀ f ∈ s.fields, f.WellFormed
  no_quote : ∀ f ∈ s.fields, '"' ∉ f.typeExpr
  doc : ∀ t ∈ s.doc, IsProse t

namespace WellFormed

theorem defines (h : s.WellFormed) :
    NamedBody.Defines Text.isSpacing s.definition ⟨s.name, '\n' :: Field.lines s.fields⟩ where
  spelled := by
    exact ⟨[' '], [' '], [' '], rfl, by simp, Text.isSpacing_space,
      ⟨h.name_ne_nil, h.isWord_name, by simp, Text.isSpacing_space, Text.isSpacing_space⟩⟩
  isBody := Field.isBody_lines h.fields h.no_quote

theorem enclosable (h : s.WellFormed) : Fence.Enclosable s.definition := by
  -- the header is the first line of the block, and the lines of the body follow it
  have hSplit : s.definition = Header.typeKeyword ++ ' ' :: s.name ++ ' ' :: Header.structKeyword ++
      [' ', '{'] ++ '\n' :: (Field.lines s.fields ++ ['}']) := by
    simp [definition, Header.spell]
  have hHeader : '\n' ∉ Header.typeKeyword ++ ' ' :: s.name ++ ' ' :: Header.structKeyword ++
      [' ', '{'] := by
    have hName : '\n' ∉ s.name := Text.not_mem_of_class h.isWord_name (by decide)
    simp [Header.typeKeyword, Header.structKeyword, hName]
  rw [hSplit]
  exact (Field.enclosable_lines h.fields).line hHeader (Field.no_fence_lines h.fields)

/-- The struct is read from its rendered definition, whatever follows. -/
theorem ofText?_render (h : s.WellFormed) (language rest : Text) :
    ofText? language (Declaration.render language s.doc s.definition ++ rest) = some s := by
  have hDefines := h.defines.mono fun _ => Text.isBlank_of_isSpacing
  rw [Struct.ofText?_render h.doc h.enclosable hDefines, Field.ofBody_lines h.fields]

end WellFormed

/-- Markdown is read as the struct that it was written from, whatever prose follows the block. -/
theorem ofText?_markdown (h : s.WellFormed) (language prose : Text) :
    ofText? language (s.markdown language ++ '\n' :: prose) = some s := by
  rw [markdown]
  exact h.ofText?_render language ('\n' :: prose)

/-- A struct whose parts hold braces, semicolons, quotes and comment marks. -/
def thorny : Struct where
  name := ['P']
  fields := [⟨['a'], ['s', '{', 'x', ';', 'y', '}'], some ['}', '/', '/'], some ['{', ';']⟩,
    ⟨['b'], ['T'], none, none⟩]
  doc := some ['"', '{', '\n', '}']

theorem wellFormed_thorny : thorny.WellFormed where
  name_ne_nil := by decide
  isWord_name := List.forall_mem_singleton.mpr (by decide)
  fields := by
    refine List.forall_mem_cons.mpr ⟨?_, List.forall_mem_singleton.mpr ?_⟩
    · refine ⟨⟨⟨by decide, ?_, ?_⟩, ?_, ?_⟩, ⟨by decide, by decide⟩, by decide, by decide⟩
      · rintro _ ⟨⟩
        decide
      · rintro _ ⟨⟩
        decide
      · rintro _ ⟨⟩
        decide
      · rintro _ ⟨⟩
        decide
    · exact Field.wellFormed_of_isName (by decide) (by decide)
  no_quote := List.forall_mem_cons.mpr ⟨by decide, List.forall_mem_singleton.mpr (by decide)⟩
  doc := by
    rintro _ ⟨⟩
    exact ⟨by decide, by decide, by decide⟩

/-- The theorem at a thorny struct, with a fence in the prose behind it. -/
theorem ofText?_markdown_thorny :
    ofText? defaultLanguage (thorny.markdown defaultLanguage ++ '\n' :: Fence.mark) = some thorny :=
  ofText?_markdown wellFormed_thorny defaultLanguage Fence.mark

end Struct

end FieldHint
