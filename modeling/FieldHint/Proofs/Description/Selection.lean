import FieldHint.Description.Basic
import FieldHint.Proofs.Description.Fence

/-!
# Descriptions — the part that is read

A description is read from one block of it, or as a whole. The block is the one that opens at the
first fence of the language, and it ends where a line starts with a fence again. What stands before
the block documents the struct and has no other say; what stands behind it has none at all.

Where no fence of the language occurs, the description is all code, and nothing documents it.

* `Fence.find?_eq_none` — without a fence of the language there is no block of it;
* `Struct.ofText?_selects` — what is read of a text with a block, and of one without a fence.
-/

namespace FieldHint

variable {language text : Text}

/-- A text without a fence of the language has no block of it. -/
theorem Fence.find?_eq_none (h : ¬ mark ++ language <:+: text) : find? language text = none := by
  have hNone : ∀ s, s ≠ [] → s <:+ text → opening? language (s ++ []) = none := by
    intro s _ hs
    rw [List.append_nil]
    exact opening?_eq_none fun hOpen => h (hOpen.isInfix.trans hs.isInfix)
  have hFind := find?_append_of_opening? hNone
  rwa [List.append_nil] at hFind

namespace Struct

/-- What a description is read as. With a block in it, the struct is the first one in the code of
the block, documented by the prose in front; without a fence of the language, it is the first one in
the whole text, and nothing documents it.

The prose may hold fences of other languages, and the rest behind the block anything at all. The
code may start with a fence, and hold one behind other characters of a line. -/
theorem ofText?_selects (language : Text) :
    (∀ prose pad brk code brk' pad' rest : Text,
      Fence.Unopened language prose (Fence.mark ++ language ++
        (pad ++ (brk ++ (code ++ (brk' ++ (pad' ++ (Fence.mark ++ rest))))))) →
      (∀ c ∈ pad, Text.isSpacing c = true) → Fence.IsLineBreak brk →
      (∀ line ∈ (code.splitOn '\n').tail, ¬ Fence.mark <+: line.dropWhile Text.isSpacing) →
      code.getLast? ≠ some '\r' → Fence.IsLineBreak brk' →
      (∀ c ∈ pad', Text.isSpacing c = true) →
        ofText? language (prose ++ (Fence.mark ++ language ++
            (pad ++ (brk ++ (code ++ (brk' ++ (pad' ++ (Fence.mark ++ rest)))))))) =
          (NamedBody.find? code).map fun found =>
            ⟨found.name, Field.ofBody found.body, (Text.strip prose).nonempty?⟩) ∧
    ∀ text : Text, ¬ Fence.mark ++ language <:+: text →
      ofText? language text =
        (NamedBody.find? text).map fun found => ⟨found.name, Field.ofBody found.body, none⟩ := by
  constructor
  · intro prose pad brk code brk' pad' rest hProse hPad hBrk hFence hReturn hBrk' hPad'
    -- no block opens in the prose, and none closes inside the code
    have hCode : Fence.Enclosable code := .of_lines hFence hReturn
    have hFind := Fence.find?_fenced hProse hPad hBrk hCode hBrk' hPad'
    rw [ofText?, Description.ofText, hFind]
    rfl
  · intro text hText
    rw [ofText?, Description.ofText, Fence.find?_eq_none hText]
    rfl

/-- Prose with a closed block of another language. -/
def thornyProse : Text := "see \x60\x60\x60c\n\x60\x60\x60 ".toList

/-- Code that starts with a fence and holds one inside a line. -/
def thornyCode : Text := "\x60\x60\x60\nT struct\x7ba int //\x60\x60\x60\n\x7d".toList

/-- What looks like a second block. -/
def thornyRest : Text := "go\nU struct\x7b\x7d\n\x60\x60\x60".toList

/-- The code in a block, with a rest behind it. -/
def thornyBlock : Text := Fence.mark ++ ['g', 'o'] ++
  (['\t'] ++ (['\r', '\n'] ++ (thornyCode ++ (['\n'] ++ ([' '] ++ (Fence.mark ++ thornyRest))))))

/-- A struct behind a fence of another language, in a text without a block. -/
def fencelessText : Text := "see \x60\x60\x60c\nV struct\x7bb int\x7d".toList

/-- The theorem at that block, at this text, which is read as a whole, and at one without a
struct. -/
theorem ofText?_selects_thorny :
    Fence.Unopened ['g', 'o'] thornyProse thornyBlock ∧
      ofText? ['g', 'o'] (thornyProse ++ thornyBlock) =
        some ⟨['T'], [⟨['a'], ['i', 'n', 't'], none, some Fence.mark⟩], Text.strip thornyProse⟩ ∧
      ofText? ['g', 'o'] fencelessText =
        some ⟨['V'], [⟨['b'], ['i', 'n', 't'], none, none⟩], none⟩ ∧
      ofText? ['g', 'o'] ['T'] = none := by
  obtain ⟨hFenced, hWhole⟩ := ofText?_selects ['g', 'o']
  have hUnopened : Fence.Unopened ['g', 'o'] thornyProse thornyBlock := by
    have hTails : ∀ s ∈ thornyProse.tails, s ≠ [] →
        ¬ Fence.mark ++ ['g', 'o'] <+: s ++ thornyBlock := by
      decide +kernel
    intro s hne hs
    exact hTails s ((List.mem_tails s _).mpr hs) hne
  have hTab : ∀ c ∈ ['\t'], Text.isSpacing c = true := List.forall_mem_singleton.mpr (by decide)
  have hRead := hFenced thornyProse ['\t'] ['\r', '\n'] thornyCode ['\n'] [' '] thornyRest hUnopened
    hTab (Or.inr rfl) (by decide +kernel) (by decide) (Or.inl rfl) Text.isSpacing_space
  refine ⟨hUnopened, hRead.trans ?_, (hWhole fencelessText (by decide)).trans ?_, ?_⟩
  · decide +kernel
  · decide +kernel
  · rw [hWhole ['T'] (by decide)]
    decide

end Struct

end FieldHint
