import FieldHint.Comment
import FieldHint.Proofs.Brace.Depth

/-!
# Text — scans of code

Two scans of this library read code one character at a time, the search for a closing brace and the
splitter of struct bodies. What may stand between the code is not the same for the two, nor are the
characters at which they stop. What they share is said here once, for any step and any stops:

* `Passes` — a text that a scan comes through without a stop;
* `Passes.stay` — the inside of a comment or of a string leaves the scan where it is;
* `Passes.of_states` — a text is passed if the state behind each part of it is known.

`CodeMode` is what the modes of the two have in common: both read code until a character opens
something, and both need two slashes for a comment. So behind code that opens nothing a scan is in
one of two modes, `endMode`, and which of them it is shows in the last character. Every brace of
such code counts, so the state behind it is known, and `passes_plain` is what both scans say of it.
-/

namespace FieldHint.Text

/-! ## Passing over text -/

section

variable {S : Type} {step : S → Char → S} {stops : S → Char → Bool} {s s' s'' : S} {t u : Text}
  {c : Char}

/-- A scan comes through a text, from one state to another, and stops at no character of it. -/
inductive Passes (step : S → Char → S) (stops : S → Char → Bool) : S → Text → S → Prop
  | nil {s : S} : Passes step stops s [] s
  | cons {s s' s'' : S} {c : Char} {t : Text} (hc : stops s c = false) (hStep : step s c = s')
      (ht : Passes step stops s' t s'') : Passes step stops s (c :: t) s''

namespace Passes

theorem foldl_eq (h : Passes step stops s t s') : t.foldl step s = s' := by
  induction h with
  | nil => rfl
  | cons _ hStep _ ih => rw [List.foldl_cons, hStep, ih]

theorem char (hc : stops s c = false) (hStep : step s c = s') : Passes step stops s [c] s' :=
  .cons hc hStep .nil

theorem append (ht : Passes step stops s t s') (hu : Passes step stops s' u s'') :
    Passes step stops s (t ++ u) s'' := by
  induction ht with
  | nil => exact hu
  | cons hc hStep _ ih => exact .cons hc hStep (ih hu)

theorem flatMap {α : Type} {f : α → Text} {l : List α}
    (h : ∀ a ∈ l, Passes step stops s (f a) s) : Passes step stops s (l.flatMap f) s := by
  induction l with
  | nil => exact .nil
  | cons a l ih =>
    rw [List.flatMap_cons]
    exact append (h a List.mem_cons_self) (ih fun b hb => h b (List.mem_cons_of_mem _ hb))

/-- A text is passed if each of its characters leaves the scan where it is. -/
theorem stay (h : ∀ c ∈ t, stops s c = false ∧ step s c = s) : Passes step stops s t s := by
  induction t with
  | nil => exact .nil
  | cons c t ih =>
    rw [List.forall_mem_cons] at h
    exact .cons h.1.1 h.1.2 (ih h.2)

/-- A text is passed if the state behind each part of it is known, and is no stop for the character
that follows. -/
theorem of_states (state : Text → S)
    (h : ∀ p c, p ++ [c] <+: t → stops (state p) c = false ∧ step (state p) c = state (p ++ [c])) :
    Passes step stops (state []) t (state t) := by
  -- the state is known by what has been read, so the induction goes from the end of the text
  induction t using List.reverseRecOn with
  | nil => exact .nil
  | append_singleton t c ih =>
    obtain ⟨hc, hStep⟩ := h t c List.prefix_rfl
    have hBefore := ih fun p d hp => h p d (hp.trans (List.prefix_append t [c]))
    exact hBefore.append (.char hc hStep)

end Passes

end

/-! ## Code -/

/-- The modes of a scan that reads code. Right behind a slash, another one opens a comment. What
else a character of code opens, a string or a tag, is up to the scan. -/
class CodeMode (M : Type) where
  code : M
  slash : M
  isCode : M → Bool
  next : M → Char → M
  opens : Char → Bool
  isCode_code : isCode code = true
  isCode_slash : isCode slash = true
  next_code {c : Char} : opens c = false → next code c = if c = '/' then slash else code
  next_slash {c : Char} : opens c = false → c ≠ '/' → next slash c = code

variable {M : Type} [CodeMode M] {t u : Text} {c : Char}

/-- Code that opens nothing. -/
structure IsPlain (M : Type) [CodeMode M] (t : Text) : Prop where
  opens : ∀ c ∈ t, CodeMode.opens M c = false
  no_comment : ¬ Comment.mark <:+: t

theorem IsPlain.of_isInfix (h : IsPlain M t) (hu : u <:+: t) : IsPlain M u where
  opens c hc := h.opens c (hu.subset hc)
  no_comment hMark := h.no_comment (hMark.trans hu)

/-- The mode behind code that opens nothing: a slash at its end may open a comment yet. -/
def endMode (t : Text) : M := if t.getLast? = some '/' then CodeMode.slash else CodeMode.code

theorem isCode_endMode (t : Text) : CodeMode.isCode (endMode t : M) = true := by
  rw [endMode]
  split
  · exact CodeMode.isCode_slash
  · exact CodeMode.isCode_code

theorem endMode_of_not_mem (h : '/' ∉ t) : (endMode t : M) = CodeMode.code :=
  if_neg fun hLast => h (List.mem_of_getLast? hLast)

theorem IsPlain.next_endMode (h : IsPlain M (t ++ [c])) :
    CodeMode.next (endMode t : M) c = endMode (t ++ [c]) := by
  have hOpens : CodeMode.opens M c = false := h.opens c (by simp)
  have hEnd : (endMode (t ++ [c]) : M) = if c = '/' then CodeMode.slash else CodeMode.code := by
    simp [endMode]
  rw [hEnd, endMode]
  split
  · next hLast =>
    -- another slash would make a comment of the two
    have hc : c ≠ '/' := by
      rintro rfl
      obtain ⟨a, rfl⟩ := List.getLast?_eq_some_iff.mp hLast
      exact h.no_comment ⟨a, [], by simp [Comment.mark]⟩
    rw [if_neg hc]
    exact CodeMode.next_slash hOpens hc
  · exact CodeMode.next_code hOpens

/-! ## Braces in code -/

section

variable {S : Type} {step : S → Char → S} {stops : S → Char → Bool} {place : M → Int → S}

/-- A scan that counts the braces of code passes code that opens nothing, unless it stops in it. -/
theorem passes_plain
    (hStep : ∀ m d c, CodeMode.isCode m = true →
      step (place m d) c = place (CodeMode.next m c) (d + Brace.weight c))
    (ht : IsPlain M t) (d : Int)
    (hStops : ∀ p c, p ++ [c] <+: t → stops (place (endMode p) (d + Brace.depth p)) c = false) :
    Passes step stops (place CodeMode.code d) t (place (endMode t) (d + Brace.depth t)) := by
  have hStart : place (endMode []) (d + Brace.depth []) = place CodeMode.code d := by
    rw [Brace.depth_nil, add_zero]
    rfl
  rw [← hStart]
  refine .of_states (fun p => place (endMode p) (d + Brace.depth p)) ?_
  intro p c hp
  refine ⟨hStops p c hp, ?_⟩
  have hPlain : IsPlain M (p ++ [c]) := ht.of_isInfix hp.isInfix
  have hDepth : Brace.depth (p ++ [c]) = Brace.depth p + Brace.weight c := by simp
  rw [hStep _ _ _ (isCode_endMode p), hPlain.next_endMode, hDepth, add_assoc]

/-- So the state behind such code is known, whether the scan stops in it or not. -/
theorem foldl_plain
    (hStep : ∀ m d c, CodeMode.isCode m = true →
      step (place m d) c = place (CodeMode.next m c) (d + Brace.weight c))
    (ht : IsPlain M t) (d : Int) :
    t.foldl step (place CodeMode.code d) = place (endMode t) (d + Brace.depth t) := by
  have hPasses : Passes step (fun _ _ => false) (place CodeMode.code d) t
      (place (endMode t) (d + Brace.depth t)) := passes_plain hStep ht d fun _ _ _ => rfl
  exact hPasses.foldl_eq

end

end FieldHint.Text
