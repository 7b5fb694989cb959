import FieldHint.Declaration.Lookup
import FieldHint.Proofs.Description.Fence
import FieldHint.Proofs.Struct.Definition

/-!
# Descriptions — what is rendered is read back

A comment and a definition are rendered as prose and a fenced block. The reader finds the block
again, takes the prose as the documentation and the definition as the struct.

* `ofText_render_of_find?`, `ofText_render` — the parts of the description are those that were
  rendered;
* `ofText?_render` — the struct is read from the definition, and the comment documents it.
-/

namespace FieldHint

variable {language code : Text} {doc : Option Text} {found : NamedBody}

/-- Documentation that markdown can hold in front of a block: not blank, without blanks around it,
and without fences. -/
structure IsProse (t : Text) : Prop where
  ne_nil : t ≠ []
  strip : Text.strip t = t
  no_fence : ¬ Fence.mark <:+: t

/-- The prose in front of a block, with the blank line that ends it, is the documentation. -/
theorem Text.nonempty?_strip_paragraph {t : Text} (hne : t ≠ []) (hStrip : Text.strip t = t) :
    (Text.strip (t ++ ['\n', '\n'])).nonempty? = some t := by
  have hBlank : ∀ c ∈ ['\n', '\n'], Text.isBlank c = true :=
    List.forall_mem_cons.mpr ⟨by decide, List.forall_mem_singleton.mpr (by decide)⟩
  rw [Text.strip_append_blank hBlank, hStrip, Text.nonempty?_of_ne_nil hne]

/-- The prose opens no block before the one behind it. -/
theorem IsProse.unopened {t u : Text} (h : IsProse t) :
    Fence.Unopened language (t ++ ['\n', '\n']) u := by
  -- the blank line adds no backtick
  have hLine : ¬ Fence.mark <:+: t ++ ['\n'] := by
    rw [Text.infix_append_cons_iff (by decide)]
    rintro (hMark | hMark)
    · exact h.no_fence hMark
    · exact absurd (List.infix_nil.mp hMark) (by decide)
  have hSplit : t ++ ['\n', '\n'] = t ++ ['\n'] ++ ['\n'] := by simp
  rw [hSplit]
  exact Fence.Unopened.of_no_mark hLine

namespace Description

/-- A rendered comment and definition are found again if the search for the block passes the
comment. -/
theorem ofText_render_of_find? {rest : Text} (hCode : Fence.Enclosable code)
    (hDoc : ∀ t ∈ doc, t ≠ [] ∧ Text.strip t = t ∧
      Fence.find? language (t ++ ['\n', '\n'] ++ (Fence.block language code ++ rest)) =
        some (t ++ ['\n', '\n'], code)) :
    ofText language (Declaration.render language doc code ++ rest) = ⟨code, doc⟩ := by
  cases doc with
  | none =>
    have hFind : Fence.find? language ([] ++ (Fence.block language code ++ rest)) =
        some ([], code) :=
      Fence.find?_block .nil hCode
    rw [List.nil_append] at hFind
    rw [ofText, Declaration.render, hFind]
    rfl
  | some t =>
    obtain ⟨hne, hStrip, hFind⟩ := hDoc t rfl
    rw [← List.append_assoc] at hFind
    rw [ofText, Declaration.render, hFind]
    simp only [Text.nonempty?_strip_paragraph hne hStrip]

/-- A rendered comment and definition are found again, whatever follows. -/
theorem ofText_render (hDoc : ∀ t ∈ doc, IsProse t) (hCode : Fence.Enclosable code) (rest : Text) :
    ofText language (Declaration.render language doc code ++ rest) = ⟨code, doc⟩ := by
  refine ofText_render_of_find? hCode fun t ht => ?_
  have hProse : IsProse t := hDoc t ht
  exact ⟨hProse.ne_nil, hProse.strip, Fence.find?_block hProse.unopened hCode⟩

end Description

/-- A rendered definition is read as the struct that it defines, and the comment documents it. -/
theorem Struct.ofText?_render (hDoc : ∀ t ∈ doc, IsProse t) (hCode : Fence.Enclosable code)
    (hDefines : NamedBody.Defines Text.isBlank code found) (language rest : Text) :
    Struct.ofText? language (Declaration.render language doc code ++ rest) =
      some ⟨found.name, Field.ofBody found.body, doc⟩ := by
  have hFind := hDefines.find? []
  rw [List.append_nil] at hFind
  rw [Struct.ofText?, Description.ofText_render hDoc hCode, Description.struct?, hFind]
  rfl

end FieldHint
