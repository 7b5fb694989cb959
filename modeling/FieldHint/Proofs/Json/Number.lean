import FieldHint.Json.Reader
import FieldHint.Proofs.Json.Grammar
import FieldHint.Proofs.Text.Cut

/-!
# JSON — words and numbers are read as they are written

* `scalar_read` — a word or a number is read up to its end, as the value that it stands for;
* `isScalar_of_word?`, `isScalar_of_number` — what is read as a word or a number stands for its
  value.

A number ends where no character follows that could belong to it (`EndsNumber`).
-/

namespace FieldHint.Json.Reader

variable {d : Dialect} {v : Json} {c : Char} {sign n : Int}
  {s t u rest whole fraction f e : Text}

/-- No character follows that could belong to a number. -/
def EndsNumber (rest : Text) : Prop :=
  ∀ c ∈ rest.head?, c.isDigit = false ∧ c ≠ '.' ∧ c ≠ 'e' ∧ c ≠ 'E'

/-! ## Digits -/

theorem head?_isDigit (h : IsDigits t) : ∃ c u, t = c :: u ∧ c.isDigit = true := by
  obtain ⟨c, u, rfl⟩ := List.exists_cons_of_ne_nil h.ne_nil
  exact ⟨c, u, rfl, h.chars c List.mem_cons_self⟩

theorem ne_of_isDigit {x : Char} (hc : c.isDigit = true) (hx : x.isDigit = false) : c ≠ x := by
  rintro rfl
  rw [hc] at hx
  cases hx

theorem span_isDigit (h : IsDigits t) (hu : ∀ c ∈ u.head?, c.isDigit = false) :
    (t ++ u).takeWhile Char.isDigit = t ∧ (t ++ u).dropWhile Char.isDigit = u :=
  ⟨Text.takeWhile_run h.chars hu, Text.dropWhile_run h.chars hu⟩

/-- The digits at the start of a text, if there are any. -/
theorem isDigits_takeWhile (hne : t.takeWhile Char.isDigit ≠ []) :
    IsDigits (t.takeWhile Char.isDigit) where
  ne_nil := hne
  chars _ hc := List.mem_takeWhile_imp hc

theorem wholeDigits_append (h : IsWhole whole) (hu : ∀ c ∈ u.head?, c.isDigit = false) :
    wholeDigits (whole ++ u) = (whole, u) := by
  obtain ⟨c, w, rfl, -⟩ := head?_isDigit h.toIsDigits
  by_cases hc : c = '0'
  · subst hc
    rw [h.no_zero rfl]
    rfl
  · obtain ⟨hTake, hDrop⟩ := span_isDigit h.toIsDigits hu
    rw [wholeDigits.eq_2, List.span_eq_takeWhile_dropWhile, hTake, hDrop]
    rintro v hv
    exact hc (List.cons.inj hv).1

theorem isWhole_of_wholeDigits (h : wholeDigits t = (whole, u)) (hne : whole ≠ []) :
    IsWhole whole ∧ t = whole ++ u := by
  unfold wholeDigits at h
  split at h
  · obtain ⟨rfl, rfl⟩ := Prod.mk.inj h
    exact ⟨⟨⟨hne, List.forall_mem_singleton.mpr (by decide)⟩, fun _ => rfl⟩, rfl⟩
  · next hZero =>
    rw [List.span_eq_takeWhile_dropWhile] at h
    obtain ⟨rfl, rfl⟩ := Prod.mk.inj h
    refine ⟨⟨isDigits_takeWhile hne, fun hHead => ?_⟩, List.takeWhile_append_dropWhile.symm⟩
    -- a zero at the start would have been taken alone
    obtain ⟨w, hw⟩ := List.takeWhile_prefix (l := t) Char.isDigit
    obtain ⟨x, hx⟩ := List.head?_eq_some_iff.mp hHead
    rw [hx] at hw
    exact (hZero (x ++ w) hw.symm).elim

theorem fractionDigits_append (h : IsFraction fraction f)
    (hu : ∀ c ∈ u.head?, c.isDigit = false ∧ c ≠ '.') :
    fractionDigits (f ++ u) = (fraction, u) := by
  cases h with
  | none =>
    unfold fractionDigits
    split
    · next v hv =>
      rw [List.nil_append] at hv
      rw [hv] at hu
      exact absurd rfl (hu '.' rfl).2
    · rfl
  | digits h =>
    obtain ⟨hTake, hDrop⟩ := span_isDigit h fun c hc => (hu c hc).1
    rw [List.cons_append, fractionDigits, hTake, List.span_eq_takeWhile_dropWhile, hTake, hDrop,
      if_neg (by simpa using h.ne_nil)]

theorem isFraction_of_fractionDigits (h : fractionDigits t = (fraction, u)) :
    ∃ f, IsFraction fraction f ∧ t = f ++ u := by
  unfold fractionDigits at h
  split at h
  · next t =>
    split at h
    · obtain ⟨rfl, rfl⟩ := Prod.mk.inj h
      exact ⟨[], .none, rfl⟩
    · next hne =>
      rw [List.span_eq_takeWhile_dropWhile] at h
      obtain ⟨rfl, rfl⟩ := Prod.mk.inj h
      refine ⟨_, .digits (isDigits_takeWhile (by rwa [List.isEmpty_iff] at hne)), ?_⟩
      rw [List.cons_append, List.takeWhile_append_dropWhile]
  · obtain ⟨rfl, rfl⟩ := Prod.mk.inj h
    exact ⟨[], .none, rfl⟩

/-! ## Exponents -/

/-- A sign is none of the digits. -/
theorem head?_ne_of_isDigits (h : IsDigits t) (hc : c.isDigit = false) (u : Text) :
    (t ++ u).head? ≠ some c := by
  obtain ⟨x, w, rfl, hx⟩ := head?_isDigit h
  rw [List.cons_append, List.head?_cons, ne_eq, Option.some_inj]
  exact ne_of_isDigit hx hc

/-- The sign in front of an exponent is read off its first character. -/
theorem signedDigits_of_sign (hSign : IsSign sign s ∨ sign = 1 ∧ s = ['+'])
    (ht : s = [] → t.head? ≠ some '-' ∧ t.head? ≠ some '+') :
    signedDigits (s ++ t) =
      if (t.takeWhile Char.isDigit).isEmpty then none
      else some (sign * Text.toNat (t.takeWhile Char.isDigit), t.dropWhile Char.isDigit) := by
  rcases hSign with (_ | _) | ⟨rfl, rfl⟩
  · obtain ⟨hMinus, hPlus⟩ := ht rfl
    simp only [signedDigits, List.nil_append, hMinus, hPlus, or_self, if_false]
  · simp only [signedDigits, List.singleton_append, List.head?_cons, true_or, if_true,
      List.drop_succ_cons, List.drop_zero]
  · simp only [signedDigits, List.singleton_append, List.head?_cons, or_true, if_true,
      List.drop_succ_cons, List.drop_zero]
    rfl

theorem exists_sign (t : Text) : ∃ sign s u, (IsSign sign s ∨ sign = 1 ∧ s = ['+']) ∧
    (s = [] → u.head? ≠ some '-' ∧ u.head? ≠ some '+') ∧ t = s ++ u := by
  by_cases hMinus : t.head? = some '-'
  · obtain ⟨u, rfl⟩ := List.head?_eq_some_iff.mp hMinus
    exact ⟨-1, ['-'], u, Or.inl .minus, by simp, rfl⟩
  by_cases hPlus : t.head? = some '+'
  · obtain ⟨u, rfl⟩ := List.head?_eq_some_iff.mp hPlus
    exact ⟨1, ['+'], u, Or.inr ⟨rfl, rfl⟩, by simp, rfl⟩
  · exact ⟨1, [], t, Or.inl .plus, fun _ => ⟨hMinus, hPlus⟩, rfl⟩

theorem exponent?_append (h : IsExponent n e) (hne : e ≠ [])
    (hu : ∀ c ∈ u.head?, c.isDigit = false) : exponent? (e ++ u) = some (n, u) := by
  cases h with
  | none => exact absurd rfl hne
  | @digits mark sign s t hMark hSign h =>
    obtain ⟨hTake, hDrop⟩ := span_isDigit h hu
    have hSigned : signedDigits (s ++ (t ++ u)) = some (sign * Text.toNat t, u) := by
      rw [signedDigits_of_sign hSign, hTake, hDrop, if_neg (by simpa using h.ne_nil)]
      exact fun _ => ⟨head?_ne_of_isDigits h (by decide) u, head?_ne_of_isDigits h (by decide) u⟩
    rw [List.cons_append, List.append_assoc]
    rcases hMark with rfl | rfl <;> exact hSigned

theorem isExponent_of_exponent? (h : exponent? t = some (n, u)) :
    ∃ e, IsExponent n e ∧ e ≠ [] ∧ t = e ++ u := by
  have hSigned : ∀ mark t, mark = 'e' ∨ mark = 'E' → signedDigits t = some (n, u) →
      ∃ e, IsExponent n e ∧ e ≠ [] ∧ mark :: t = e ++ u := by
    intro mark t hMark h
    obtain ⟨sign, s, w, hSign, hHead, rfl⟩ := exists_sign t
    rw [signedDigits_of_sign hSign hHead] at h
    split at h
    · cases h
    · next hne =>
      obtain ⟨rfl, rfl⟩ := Prod.mk.inj (Option.some.inj h)
      rw [List.isEmpty_iff] at hne
      refine ⟨_, .digits hMark hSign (isDigits_takeWhile hne), by simp, ?_⟩
      rw [List.cons_append, List.append_assoc, List.takeWhile_append_dropWhile]
  unfold exponent? at h
  split at h
  · exact hSigned 'e' _ (Or.inl rfl) h
  · exact hSigned 'E' _ (Or.inr rfl) h
  · cases h

/-! ## Numbers -/

/-- No exponent follows a character that does not mark one. -/
theorem exponent?_of_endsNumber (h : EndsNumber t) : exponent? t = none := by
  cases t with
  | nil => rfl
  | cons c t =>
    obtain ⟨-, -, hLower, hUpper⟩ := h c rfl
    unfold exponent?
    split
    · next hc => exact absurd (List.cons.inj hc).1 hLower
    · next hc => exact absurd (List.cons.inj hc).1 hUpper
    · rfl

theorem number_of_no_whole (hSign : IsSign sign s) (ht : s = [] → t.head? ≠ some '-')
    (hWhole : (wholeDigits t).1 = []) : number (s ++ t) = .error ⟨.noValue, (s ++ t).length⟩ := by
  cases hSign with
  | plus => simp [number, ht rfl, hWhole]
  | minus => simp [number, hWhole]

/-- A number by its parts. -/
theorem number_of_parts (hSign : IsSign sign s) (ht : s = [] → t.head? ≠ some '-')
    (hWhole : wholeDigits t = (whole, u)) (hne : whole ≠ [])
    (hFraction : fractionDigits u = (fraction, rest)) :
    number (s ++ t) =
      match fraction.isEmpty, exponent? rest with
      | true, none =>
        if Text.maxDigits < whole.length then
          .error ⟨.tooManyDigits whole.length, (s ++ t).length⟩
        else .ok (.int (sign * Text.toNat whole), rest)
      | _, none => .ok (.decimal (sign * Text.toNat (whole ++ fraction)) (-fraction.length), rest)
      | _, some (e, rest) =>
        .ok (.decimal (sign * Text.toNat (whole ++ fraction)) (e - fraction.length), rest) := by
  have hEmpty : whole.isEmpty = false := by simpa using hne
  cases hSign with
  | plus =>
    simp only [number, List.nil_append, ht rfl, if_false, hWhole, hEmpty, hFraction]
    rfl
  | minus =>
    simp only [number, List.singleton_append, List.head?_cons, if_true, List.drop_succ_cons,
      List.drop_zero, hWhole, hEmpty, hFraction]
    rfl

/-- Where an integer ends, it is read. -/
theorem number_integer (hSign : IsSign sign s) (hWhole : IsWhole whole)
    (hLong : whole.length ≤ Text.maxDigits) (hEnd : EndsNumber rest) :
    number (s ++ (whole ++ rest)) = .ok (.int (sign * Text.toNat whole), rest) := by
  rw [number_of_parts hSign (fun _ => head?_ne_of_isDigits hWhole.toIsDigits (by decide) rest)
      (wholeDigits_append hWhole fun c hc => (hEnd c hc).1) hWhole.ne_nil
      (fractionDigits_append .none fun c hc => ⟨(hEnd c hc).1, (hEnd c hc).2.1⟩),
    exponent?_of_endsNumber hEnd]
  exact if_neg (by omega)

theorem head?_exponent (hExponent : IsExponent n e) (hEnd : EndsNumber rest) :
    ∀ c ∈ (e ++ rest).head?, c.isDigit = false ∧ c ≠ '.' := by
  cases hExponent with
  | none => exact fun c hc => ⟨(hEnd c hc).1, (hEnd c hc).2.1⟩
  | digits hMark _ _ =>
    rintro c ⟨⟩
    rcases hMark with rfl | rfl <;> decide

theorem head?_fraction (hFraction : IsFraction fraction f) (hExponent : IsExponent n e)
    (hEnd : EndsNumber rest) : ∀ c ∈ (f ++ (e ++ rest)).head?, c.isDigit = false := by
  cases hFraction with
  | none => exact fun c hc => (head?_exponent hExponent hEnd c hc).1
  | digits _ =>
    rintro c ⟨⟩
    rfl

/-- Where a number with a fraction or an exponent ends, it is read. -/
theorem number_decimal (hSign : IsSign sign s) (hWhole : IsWhole whole)
    (hFraction : IsFraction fraction f) (hExponent : IsExponent n e) (hne : f ++ e ≠ [])
    (hEnd : EndsNumber rest) :
    number (s ++ (whole ++ (f ++ (e ++ rest)))) =
      .ok (.decimal (sign * Text.toNat (whole ++ fraction)) (n - fraction.length), rest) := by
  rw [number_of_parts hSign (fun _ => head?_ne_of_isDigits hWhole.toIsDigits (by decide) _)
    (wholeDigits_append hWhole (head?_fraction hFraction hExponent hEnd)) hWhole.ne_nil
    (fractionDigits_append hFraction (head?_exponent hExponent hEnd))]
  by_cases hMark : e = []
  · -- no exponent, so there is a fraction
    subst hMark
    cases hExponent
    cases hFraction with
    | none => exact absurd rfl hne
    | digits hDigits =>
      have hFull : fraction.isEmpty = false := by simpa using hDigits.ne_nil
      rw [List.nil_append, exponent?_of_endsNumber hEnd, hFull, zero_sub]
  · rw [exponent?_append hExponent hMark fun c hc => (hEnd c hc).1]
    cases fraction.isEmpty <;> rfl

/-- What is read as a number is written as one. -/
theorem isScalar_of_number (h : number t = .ok (v, rest)) :
    ∃ e, IsScalar .extended v e ∧ t = e ++ rest := by
  obtain ⟨sign, s, u, hSign, hMinus, rfl⟩ :
      ∃ sign s u, IsSign sign s ∧ (s = [] → u.head? ≠ some '-') ∧ t = s ++ u := by
    by_cases hMinus : t.head? = some '-'
    · obtain ⟨u, rfl⟩ := List.head?_eq_some_iff.mp hMinus
      exact ⟨-1, ['-'], u, .minus, by simp, rfl⟩
    · exact ⟨1, [], t, .plus, fun _ => hMinus, rfl⟩
  obtain ⟨whole, w, hWhole⟩ : ∃ whole w, wholeDigits u = (whole, w) := ⟨_, _, rfl⟩
  by_cases hne : whole = []
  · rw [number_of_no_whole hSign hMinus (by rw [hWhole, hne])] at h
    cases h
  obtain ⟨fraction, w', hFraction⟩ : ∃ fraction w', fractionDigits w = (fraction, w') := ⟨_, _, rfl⟩
  rw [number_of_parts hSign hMinus hWhole hne hFraction] at h
  obtain ⟨hIsWhole, rfl⟩ := isWhole_of_wholeDigits hWhole hne
  obtain ⟨f, hIsFraction, rfl⟩ := isFraction_of_fractionDigits hFraction
  split at h
  · next hEmpty hNone =>
    split at h
    · cases h
    · next hLong =>
      obtain ⟨rfl, rfl⟩ := Prod.mk.inj (Except.ok.inj h)
      rw [List.isEmpty_iff] at hEmpty
      subst hEmpty
      cases hIsFraction with
      | none => exact ⟨_, .integer hSign hIsWhole (by omega), by simp⟩
      | digits hDigits => exact absurd rfl hDigits.ne_nil
  · next hFull =>
    obtain ⟨rfl, rfl⟩ := Prod.mk.inj (Except.ok.inj h)
    have hFraction : f ++ [] ≠ [] := by
      cases hIsFraction with
      | none => exact absurd rfl hFull
      | digits _ => simp
    rw [← zero_sub]
    exact ⟨_, .decimal hSign hIsWhole hIsFraction .none hFraction, by simp⟩
  · next hMark =>
    obtain ⟨rfl, rfl⟩ := Prod.mk.inj (Except.ok.inj h)
    obtain ⟨e, hExponent, hMarked, rfl⟩ := isExponent_of_exponent? hMark
    exact ⟨_, .decimal hSign hIsWhole hIsFraction hExponent (by simp [hMarked]), by simp⟩

/-! ## Words -/

/-- What is read as a word is that word. -/
theorem isScalar_of_word? (h : word? t = some (v, rest)) :
    ∃ e, IsScalar .extended v e ∧ t = e ++ rest := by
  obtain ⟨⟨word, value⟩, hWord, h⟩ := List.exists_of_findSome?_eq_some h
  obtain ⟨u, hAfter, h⟩ := Option.map_eq_some_iff.mp h
  obtain ⟨rfl, rfl⟩ := Prod.mk.inj h
  refine ⟨word, ?_, Text.after?_eq_some_iff.mp hAfter⟩
  simp only [words, List.mem_cons, Prod.mk.injEq, List.not_mem_nil, or_false] at hWord
  rcases hWord with ⟨rfl, rfl⟩ | ⟨rfl, rfl⟩ | ⟨rfl, rfl⟩ | ⟨rfl, rfl⟩ | ⟨rfl, rfl⟩ | ⟨rfl, rfl⟩
  · exact .null
  · exact .true
  · exact .false
  · exact .notANumber rfl
  · exact .infinite rfl
  · exact .minusInfinite rfl

/-- No word starts as a number does. -/
theorem word?_of_number (hSign : IsSign sign s) (hWhole : IsWhole whole) (u : Text) :
    word? (s ++ (whole ++ u)) = none := by
  obtain ⟨c, w, rfl, hDigit⟩ := head?_isDigit hWhole.toIsDigits
  have hLetters : ∀ x : Char, x.isDigit = false → ¬ x = c :=
    fun x hx => (ne_of_isDigit hDigit hx).symm
  cases hSign <;> simp [word?, words, Text.after?, hLetters]

/-- A word or a number is read as far as it goes. -/
theorem scalar_read (h : IsScalar d v t) (hEnd : EndsNumber rest) :
    (match word? (t ++ rest) with
      | some result => Except.ok result
      | none => number (t ++ rest)) = .ok (v, rest) := by
  cases h with
  | null | true | false | notANumber _ | infinite _ | minusInfinite _ => rfl
  | integer hSign hWhole hLong =>
    rw [List.append_assoc, word?_of_number hSign hWhole]
    exact number_integer hSign hWhole hLong hEnd
  | decimal hSign hWhole hFraction hExponent hne =>
    simp only [List.append_assoc]
    rw [word?_of_number hSign hWhole]
    exact number_decimal hSign hWhole hFraction hExponent hne hEnd

end FieldHint.Json.Reader
