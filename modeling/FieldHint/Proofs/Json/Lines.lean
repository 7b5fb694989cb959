import FieldHint.Proofs.Json.Value
import FieldHint.Proofs.Text.Utf8

/-!
# JSON — line breaks

`exists_unixLines`: where every line break becomes a line feed, what stands for a value still
stands for it. Line breaks are only found between tokens, since a string cannot hold one as it is.
-/

namespace FieldHint.Json

open Reader Text

variable {d : Dialect} {c : Char} {s t ws : Text}

/-! ## Tokens -/

/-- A character that is no hexadecimal digit, such as a backslash or the first half of a line
break, stands in no code unit. -/
theorem not_mem_codeUnit {x : Char} {n : Nat} {digits : Text} (hx : hexValue? x = none)
    (h : IsCodeUnit n digits) : x ∉ digits := by
  intro hMem
  have hLower := List.mem_map_of_mem (f := Char.toLower) hMem
  rw [h.digits_eq] at hLower
  obtain ⟨k, hk, hDigit⟩ := exists_hexDigit_of_mem hLower
  rw [hexValue?_eq_some_iff.mpr ⟨hk, hDigit⟩] at hx
  cases hx

theorem return_not_mem_writes (h : Writes c t) : '\r' ∉ t := by
  have hReturn : hexValue? '\r' = none := by decide
  cases h with
  | raw _ _ hControl =>
    rw [List.mem_singleton]
    rintro rfl
    exact absurd hControl (by decide)
  | @letter x _ hLetter =>
    have hNe : '\r' ≠ x := by
      rintro rfl
      exact absurd (escape?_eq_some_iff.mpr hLetter) (by simp [escape?])
    simp [hNe]
  | unit hUnit => simp [not_mem_codeUnit hReturn hUnit]
  | pair _ hHigh hLow => simp [not_mem_codeUnit hReturn hHigh, not_mem_codeUnit hReturn hLow]

theorem return_not_mem_spells (h : Spells d s t) : '\r' ∉ t := by
  induction h with
  | nil => simp
  | char hWrites _ ih => simp [return_not_mem_writes hWrites, ih]
  | half _ _ hUnit _ _ ih => simp [not_mem_codeUnit (x := '\r') (by decide) hUnit, ih]

/-- The characters of words and numbers. -/
def isScalarChar (c : Char) : Bool := c.isAlphanum || c = '-' || c = '+' || c = '.'

theorem all_isScalarChar {v : Json} (h : IsScalar d v t) : t.all isScalarChar = true := by
  have hDigits : ∀ {t}, IsDigits t → t.all isScalarChar = true := by
    intro t h
    rw [List.all_eq_true]
    intro c hc
    simp [isScalarChar, Char.isAlphanum, h.chars c hc]
  have hSign : ∀ {sign s}, IsSign sign s → s.all isScalarChar = true := by
    rintro _ _ (_ | _) <;> decide
  have hFraction : ∀ {fraction f}, IsFraction fraction f → f.all isScalarChar = true := by
    rintro _ _ (_ | h)
    · rfl
    · rw [List.all_cons, hDigits h]
      rfl
  have hExponent : ∀ {n e}, IsExponent n e → e.all isScalarChar = true := by
    rintro _ _ (_ | ⟨hMark, hExponentSign, h⟩)
    · rfl
    · have hMarkChar : ∀ {mark : Char}, mark = 'e' ∨ mark = 'E' → isScalarChar mark = true := by
        rintro _ (rfl | rfl) <;> decide
      have hSigned : ∀ {sign : Int} {s : Text}, IsSign sign s ∨ sign = 1 ∧ s = ['+'] →
          s.all isScalarChar = true := by
        rintro _ _ (h | ⟨-, rfl⟩)
        · exact hSign h
        · decide
      rw [List.all_cons, List.all_append, hMarkChar hMark, hSigned hExponentSign, hDigits h]
      rfl
  cases h with
  | integer h hWhole _ =>
    rw [List.all_append, hSign h, hDigits hWhole.toIsDigits]
    rfl
  | decimal h hWhole hf he _ =>
    rw [List.all_append, List.all_append, List.all_append, hSign h, hDigits hWhole.toIsDigits,
      hFraction hf, hExponent he]
    rfl
  | null | true | false | notANumber _ | infinite _ | minusInfinite _ => decide

/-- A character that words and numbers are not made of stands in none of them. -/
theorem not_mem_scalar {x : Char} {v : Json} (hx : isScalarChar x = false) (h : IsScalar d v t) :
    x ∉ t := by
  intro hMem
  rw [List.all_eq_true.mp (all_isScalarChar h) x hMem] at hx
  cases hx

theorem IsSpaces.unixLines (hws : IsSpaces ws) : IsSpaces (unixLines ws) := by
  intro c hc
  rcases mem_unixLines hc with hc | rfl
  · exact hws c hc
  · decide

/-! ## Values -/

/-- White space ends where a token starts. -/
theorem unixLines_spaces (hc : c ≠ '\n') (hReturn : c ≠ '\r') (ws t : Text) :
    Text.unixLines (ws ++ c :: t) = Text.unixLines ws ++ c :: Text.unixLines t := by
  rw [unixLines_append (by simpa using hc), unixLines_cons hReturn]

theorem unixLines_before (ht : StartsToken t) (ws rest : Text) :
    Text.unixLines (ws ++ (t ++ rest)) = Text.unixLines ws ++ Text.unixLines (t ++ rest) :=
  unixLines_append (ht.head?_ne (by decide) rest) ws

mutual

/-- What stands for a value does so with line feeds for its line breaks, whatever follows it. -/
theorem exists_unixLines {v : Json} {t : Text} : IsValue d v t → ∀ rest,
    ∃ e, IsValue d v e ∧ Text.unixLines (t ++ rest) = e ++ Text.unixLines rest
  | .scalar h => fun rest =>
    ⟨_, .scalar h, unixLines_append_of_not_mem (not_mem_scalar (by decide) h) rest⟩
  | .string h => fun rest =>
    ⟨_, .string h, unixLines_append_of_not_mem (by simp [return_not_mem_spells h]) rest⟩
  | .noItems hws => fun rest => by
    refine ⟨_, .noItems hws.unixLines, ?_⟩
    simp only [List.cons_append, List.append_assoc, List.nil_append]
    rw [unixLines_cons (by decide), unixLines_spaces (by decide) (by decide)]
  | .items hws hItems => fun rest => by
    obtain ⟨e, hIsItems, hUnix⟩ := exists_unixLines_items hItems rest
    refine ⟨_, .items hws.unixLines hIsItems, ?_⟩
    simp only [List.cons_append, List.append_assoc]
    rw [unixLines_cons (by decide), unixLines_before (startsToken_of_isItems hItems), hUnix]
  | .noMembers hws => fun rest => by
    refine ⟨_, .noMembers hws.unixLines, ?_⟩
    simp only [List.cons_append, List.append_assoc, List.nil_append]
    rw [unixLines_cons (by decide), unixLines_spaces (by decide) (by decide)]
  | .members hws hMembers => fun rest => by
    obtain ⟨e, hIsMembers, hUnix⟩ := exists_unixLines_members hMembers rest
    refine ⟨_, .members hws.unixLines hIsMembers, ?_⟩
    simp only [List.cons_append, List.append_assoc]
    rw [unixLines_cons (by decide), unixLines_before (startsToken_of_isMembers hMembers), hUnix]

theorem exists_unixLines_items {vs : List Json} {t : Text} : IsItems d vs t → ∀ rest,
    ∃ e, IsItems d vs e ∧ Text.unixLines (t ++ rest) = e ++ Text.unixLines rest
  | @IsItems.last _ _ ws _ hValue hws => fun rest => by
    obtain ⟨e, hIsValue, hUnix⟩ := exists_unixLines hValue (ws ++ ']' :: rest)
    refine ⟨_, .last hIsValue hws.unixLines, ?_⟩
    simp only [List.append_assoc, List.singleton_append]
    rw [hUnix, unixLines_spaces (by decide) (by decide)]
  | @IsItems.more _ _ _ ws ws' _ u hValue hws hws' hItems => fun rest => by
    obtain ⟨e, hIsValue, hUnix⟩ := exists_unixLines hValue (ws ++ ',' :: (ws' ++ (u ++ rest)))
    obtain ⟨e', hIsItems, hUnix'⟩ := exists_unixLines_items hItems rest
    refine ⟨_, .more hIsValue hws.unixLines hws'.unixLines hIsItems, ?_⟩
    simp only [List.append_assoc, List.cons_append]
    rw [hUnix, unixLines_spaces (by decide) (by decide),
      unixLines_before (startsToken_of_isItems hItems), hUnix']

theorem exists_unixLines_member {m : Text × Json} {t : Text} : IsMember d m t → ∀ rest,
    ∃ e, IsMember d m e ∧ Text.unixLines (t ++ rest) = e ++ Text.unixLines rest
  | .member hKey hws hws' hValue => fun rest => by
    obtain ⟨e, hIsValue, hUnix⟩ := exists_unixLines hValue rest
    refine ⟨_, .member hKey hws.unixLines hws'.unixLines hIsValue, ?_⟩
    simp only [List.append_assoc, List.cons_append]
    rw [unixLines_cons (by decide), unixLines_append_of_not_mem (return_not_mem_spells hKey),
      unixLines_cons (by decide), unixLines_spaces (by decide) (by decide),
      unixLines_before (startsToken_of_isValue hValue), hUnix]

theorem exists_unixLines_members {ms : List (Text × Json)} {t : Text} : IsMembers d ms t →
    ∀ rest, ∃ e, IsMembers d ms e ∧ Text.unixLines (t ++ rest) = e ++ Text.unixLines rest
  | @IsMembers.last _ _ ws _ hMember hws => fun rest => by
    obtain ⟨e, hIsMember, hUnix⟩ := exists_unixLines_member hMember (ws ++ '}' :: rest)
    refine ⟨_, .last hIsMember hws.unixLines, ?_⟩
    simp only [List.append_assoc, List.singleton_append]
    rw [hUnix, unixLines_spaces (by decide) (by decide)]
  | @IsMembers.more _ _ _ ws ws' _ u hMember hws hws' hMembers => fun rest => by
    obtain ⟨e, hIsMember, hUnix⟩ :=
      exists_unixLines_member hMember (ws ++ ',' :: (ws' ++ (u ++ rest)))
    obtain ⟨e', hIsMembers, hUnix'⟩ := exists_unixLines_members hMembers rest
    refine ⟨_, .more hIsMember hws.unixLines hws'.unixLines hIsMembers, ?_⟩
    simp only [List.append_assoc, List.cons_append]
    rw [hUnix, unixLines_spaces (by decide) (by decide),
      unixLines_before (startsToken_of_isMembers hMembers), hUnix']

end

end FieldHint.Json
