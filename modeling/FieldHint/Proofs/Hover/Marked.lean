import FieldHint.Description.Basic
import FieldHint.Proofs.Description.Fence
import FieldHint.Proofs.Hover.Payload

/-!
# Marked code — what comes in a block is read out of it

A marked value of a language is put into a block, and the reader of descriptions takes it out of
the block again. What the language is called is no matter to either, and neither are fences inside
the lines of the code:

* `Hover.text?_marked` — the text of a marked value is its block;
* `Struct.ofText?_marked` — the struct is found that the value alone defines.
-/

namespace FieldHint

variable {language value : Text}

/-- A value that is marked with a language is shown as a block. -/
theorem Hover.text?_marked (hLanguage : language ≠ []) (hValue : Hover.IsVisible value) :
    Hover.text? (.object [(languageKey, .string language), (valueKey, .string value)]) =
      some (Fence.block language value) := by
  have hResult : Json.member?
      [(languageKey, .string language), (valueKey, .string value)] resultKey = none := rfl
  have hContents : Json.member?
      [(languageKey, .string language), (valueKey, .string value)] contentsKey = none := rfl
  have hValueOf : Json.member?
      [(languageKey, .string language), (valueKey, .string value)] valueKey =
      some (.string value) := rfl
  have hLanguageOf : Json.member?
      [(languageKey, .string language), (valueKey, .string value)] languageKey =
      some (.string language) := rfl
  have hNonblank : nonblank? value = some value := by
    rw [nonblank?_eq, List.find?_singleton, if_pos (decide_eq_true hValue)]
  rw [text?_object, hResult, hContents]
  simp only [marked?_eq_shown, hValueOf, hLanguageOf, Option.bind_some, Json.asString?, hNonblank,
    Option.map_some, shown, if_neg hLanguage]
  rfl

/-- Code that is not blank, none of whose lines but the first starts with a fence, and that does
not end in half a line break, comes out of its block as it went in. So the struct is found that the
code alone defines, without documentation, and none if the code defines none. -/
theorem Struct.ofText?_marked (hLanguage : language ≠ []) (hValue : Hover.IsVisible value)
    (hReturn : value.getLast? ≠ some '\r')
    (hFence : ∀ line ∈ (value.splitOn '\n').tail,
      ¬ Fence.mark <+: line.dropWhile Text.isSpacing) :
    let text := ['\x60', '\x60', '\x60'] ++ language ++ ['\n'] ++ value ++ ['\n'] ++
      ['\x60', '\x60', '\x60']
    Hover.text? (.object
        [(Hover.languageKey, .string language), (Hover.valueKey, .string value)]) = some text ∧
      ofText? language text =
        (NamedBody.find? value).map fun found => ⟨found.name, Field.ofBody found.body, none⟩ := by
  intro text
  have hText : text = Fence.block language value := rfl
  rw [hText]
  refine ⟨Hover.text?_marked hLanguage hValue, ?_⟩
  have hFind : Fence.find? language (Fence.block language value) = some ([], value) := by
    have hBlock : Fence.find? language ([] ++ (Fence.block language value ++ [])) =
        some ([], value) := Fence.find?_block .nil (.of_lines hFence hReturn)
    rwa [List.nil_append, List.append_nil] at hBlock
  rw [ofText?, Description.ofText, hFind]
  rfl

/-- The theorem at a language of one backtick, and code that starts with a fence and holds one. -/
theorem Struct.ofText?_marked_backtick :
    let text := ("\x60\x60\x60\x60\n\x60\x60\x60 type T struct \x7b\nx int\n\x7d " ++
      "\x60\x60\x60\n\n\x60\x60\x60").toList
    Hover.text? (.object
        [(Hover.languageKey, .string ['\x60']), (Hover.valueKey, .string
          "\x60\x60\x60 type T struct \x7b\nx int\n\x7d \x60\x60\x60\n".toList)]) = some text ∧
      ofText? ['\x60'] text = some ⟨['T'], [⟨['x'], ['i', 'n', 't'], none, none⟩], none⟩ := by
  have hLanguage : (['\x60'] : Text) ≠ [] := by decide
  have hValue : Hover.IsVisible
      "\x60\x60\x60 type T struct \x7b\nx int\n\x7d \x60\x60\x60\n".toList := by decide
  obtain ⟨hText, hStruct⟩ := ofText?_marked hLanguage hValue (by decide) (by decide)
  exact ⟨hText, hStruct.trans (by decide)⟩

end FieldHint
