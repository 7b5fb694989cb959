import FieldHint.Proofs.Json.Number
import FieldHint.Proofs.Json.String

/-!
# JSON — a text is read as the value that it stands for

`read_eq_ok_iff`: what is read as a value are the texts of the grammar that stand for it, and no
others.

The reader descends with fuel, so either direction has a form with fuel. What stands for a value is
read as that value with fuel for its length (`value_of_isValue`, along the grammar), and what is
read with any fuel stands for a value (`sound`, along the fuel).
-/

namespace FieldHint.Json.Reader

variable {d : Dialect} {v : Json} {vs : List Json} {m : Text × Json} {ms : List (Text × Json)}
  {c : Char} {fuel : Nat} {t u ws rest : Text}

/-! ## White space -/

theorem isSpace_iff : isSpace c = true ↔ c ∈ [' ', '\t', '\n', '\r'] := by
  simp [isSpace, or_assoc]

/-- The text does not start with white space. -/
theorem skipSpace_append (hws : IsSpaces ws) (ht : ∀ c ∈ t.head?, isSpace c = false) :
    skipSpace (ws ++ t) = t :=
  Text.dropWhile_run (fun c hc => isSpace_iff.mpr (hws c hc)) ht

theorem skipSpace_cons (hws : IsSpaces ws) (hc : isSpace c = false) (t : Text) :
    skipSpace (ws ++ c :: t) = c :: t :=
  skipSpace_append hws (by rintro _ ⟨⟩; exact hc)

theorem exists_spaces (t : Text) : ∃ ws, IsSpaces ws ∧ t = ws ++ skipSpace t := by
  refine ⟨t.takeWhile isSpace, fun c hc => isSpace_iff.mp (List.mem_takeWhile_imp hc), ?_⟩
  exact List.takeWhile_append_dropWhile.symm

theorem endsNumber_append (hws : IsSpaces ws) (hRest : EndsNumber rest) :
    EndsNumber (ws ++ rest) := by
  cases ws with
  | nil => exact hRest
  | cons c ws =>
    have hc := hws c List.mem_cons_self
    rintro _ ⟨⟩
    simp only [List.mem_cons, List.not_mem_nil, or_false] at hc
    rcases hc with rfl | rfl | rfl | rfl <;> decide

theorem endsNumber_nil : EndsNumber [] := by
  rintro _ ⟨⟩

theorem endsNumber_cons (hc : c ∈ [',', ']', '}']) (rest : Text) : EndsNumber (c :: rest) := by
  simp only [List.mem_cons, List.not_mem_nil, or_false] at hc
  rintro _ ⟨⟩
  rcases hc with rfl | rfl | rfl <;> decide

/-! ## What one step reads -/

theorem value_string_eq_ok_iff : value (fuel + 1) ('"' :: t) = .ok (v, rest) ↔
    ∃ s, string t = .ok (s, rest) ∧ v = .string s := by
  rw [value]
  exact wrap_eq_ok_iff

theorem value_array_eq_ok_iff : value (fuel + 1) ('[' :: t) = .ok (v, rest) ↔
    (skipSpace t = ']' :: rest ∧ v = .array []) ∨
      (skipSpace t).head? ≠ some ']' ∧
        ∃ vs, elements fuel (skipSpace t) = .ok (vs, rest) ∧ v = .array vs := by
  rw [value]
  split
  · next hEmpty => simp [hEmpty, eq_comm, and_comm]
  · next hSome =>
    have hNot : ∀ u, skipSpace t ≠ ']' :: u := hSome
    simp only [wrap_eq_ok_iff, ne_eq, List.head?_eq_some_iff, hNot, exists_false, false_and,
      false_or, not_false_eq_true, true_and]

theorem value_object_eq_ok_iff : value (fuel + 1) ('{' :: t) = .ok (v, rest) ↔
    (skipSpace t = '}' :: rest ∧ v = .object []) ∨
      (skipSpace t).head? ≠ some '}' ∧
        ∃ ms, members fuel (skipSpace t) = .ok (ms, rest) ∧ v = .object ms := by
  rw [value]
  split
  · next hEmpty => simp [hEmpty, eq_comm, and_comm]
  · next hSome =>
    have hNot : ∀ u, skipSpace t ≠ '}' :: u := hSome
    simp only [wrap_eq_ok_iff, ne_eq, List.head?_eq_some_iff, hNot, exists_false, false_and,
      false_or, not_false_eq_true, true_and]

/-- The characters that a string, an array and an object start with. -/
def openers : Text := ['"', '[', '{']

theorem value_of_not_opener (ht : ∀ c ∈ t.head?, c ∉ openers) :
    value (fuel + 1) t =
      match word? t with
      | some result => .ok result
      | none => number t := by
  have hApart : ∀ c ∈ openers, ∀ u, t = c :: u → False := by
    rintro c hc u rfl
    exact ht c rfl hc
  exact value.eq_5 t fuel (hApart '"' (by decide)) (hApart '[' (by decide))
    (hApart '{' (by decide))

theorem elements_eq_ok_iff : elements (fuel + 1) t = .ok (vs, rest) ↔
    ∃ v u, value fuel t = .ok (v, u) ∧
      ((skipSpace u = ']' :: rest ∧ vs = [v]) ∨
        ∃ w vs', skipSpace u = ',' :: w ∧ elements fuel (skipSpace w) = .ok (vs', rest) ∧
          vs = v :: vs') := by
  rw [elements]
  constructor
  · intro h
    obtain ⟨⟨v, u⟩, hValue, h⟩ := exists_of_bind h
    refine ⟨v, u, hValue, ?_⟩
    dsimp only at h
    split at h
    · next hEnd =>
      obtain ⟨rfl, rfl⟩ := Prod.mk.inj (Except.ok.inj h)
      exact Or.inl ⟨hEnd, rfl⟩
    · next w hMore =>
      obtain ⟨vs, hItems, rfl⟩ := wrap_eq_ok_iff.mp h
      exact Or.inr ⟨w, vs, hMore, hItems, rfl⟩
    · cases h
  · rintro ⟨v, u, hValue, ⟨hEnd, rfl⟩ | ⟨w, vs, hMore, hItems, rfl⟩⟩
    · rw [bind_of_eq_ok hValue]
      simp only [hEnd]
      rfl
    · rw [bind_of_eq_ok hValue]
      simp only [hMore]
      exact wrap_eq_ok_iff.mpr ⟨vs, hItems, rfl⟩

/-- A member is read at the start of the text: its key, a colon, and its value. -/
def ReadsMember (fuel : Nat) (t : Text) (m : Text × Json) (rest : Text) : Prop :=
  ∃ u w x, t = '"' :: u ∧ string u = .ok (m.1, w) ∧ skipSpace w = ':' :: x ∧
    value fuel (skipSpace x) = .ok (m.2, rest)

theorem members_eq_ok_iff : members (fuel + 1) t = .ok (ms, rest) ↔
    ∃ m u, ReadsMember fuel t m u ∧
      ((skipSpace u = '}' :: rest ∧ ms = [m]) ∨
        ∃ w ms', skipSpace u = ',' :: w ∧ members fuel (skipSpace w) = .ok (ms', rest) ∧
          ms = m :: ms') := by
  constructor
  · intro h
    unfold members at h
    split at h
    · next u =>
      obtain ⟨⟨key, w⟩, hKey, h⟩ := exists_of_bind h
      dsimp only at h
      split at h
      · next x hColon =>
        obtain ⟨⟨v, y⟩, hValue, h⟩ := exists_of_bind h
        refine ⟨(key, v), y, ⟨u, w, x, rfl, hKey, hColon, hValue⟩, ?_⟩
        dsimp only at h
        split at h
        · next hEnd =>
          obtain ⟨rfl, rfl⟩ := Prod.mk.inj (Except.ok.inj h)
          exact Or.inl ⟨hEnd, rfl⟩
        · next z hMore =>
          obtain ⟨ms, hMembers, rfl⟩ := wrap_eq_ok_iff.mp h
          exact Or.inr ⟨z, ms, hMore, hMembers, rfl⟩
        · cases h
      · cases h
    · cases h
  · rintro ⟨m, y, ⟨u, w, x, rfl, hKey, hColon, hValue⟩, hRest⟩
    rw [members, bind_of_eq_ok hKey]
    simp only [hColon]
    rw [bind_of_eq_ok hValue]
    rcases hRest with ⟨hEnd, rfl⟩ | ⟨z, ms, hMore, hMembers, rfl⟩
    · simp only [hEnd]
      rfl
    · simp only [hMore]
      exact wrap_eq_ok_iff.mpr ⟨ms, hMembers, rfl⟩

/-! ## Reading what stands for a value -/

/-- White space, and the brackets that close. -/
def closers : Text := [' ', '\t', '\n', '\r', ']', '}']

/-- The text starts with a token, and nothing is closed by it. -/
def StartsToken (t : Text) : Prop := ∃ c u, t = c :: u ∧ c ∉ closers

theorem StartsToken.head?_ne (ht : StartsToken t) (hc : c ∈ closers) (rest : Text) :
    (t ++ rest).head? ≠ some c := by
  obtain ⟨x, u, rfl, hx⟩ := ht
  rintro ⟨⟩
  exact hx hc

/-- Only the white space in front of a token is skipped. -/
theorem StartsToken.skipSpace (ht : StartsToken t) (hws : IsSpaces ws) (rest : Text) :
    skipSpace (ws ++ (t ++ rest)) = t ++ rest := by
  refine skipSpace_append hws fun c hc => ?_
  rw [← Bool.not_eq_true, isSpace_iff]
  exact fun hSpace => ht.head?_ne (List.mem_append_left [']', '}'] hSpace) rest hc

theorem head?_scalar (h : IsScalar d v t) : ∃ c u, t = c :: u ∧ c ∉ openers ∧ c ∉ closers := by
  have hNumber : ∀ {sign : Int} {s whole : Text} (u : Text), IsSign sign s → IsWhole whole →
      ∃ c w, s ++ (whole ++ u) = c :: w ∧ c ∉ openers ∧ c ∉ closers := by
    intro sign s whole u hSign hWhole
    obtain ⟨c, w, rfl, hDigit⟩ := head?_isDigit hWhole.toIsDigits
    cases hSign with
    | plus =>
      have hOpeners : c ∉ openers := by simp [openers, ne_of_isDigit hDigit]
      have hClosers : c ∉ closers := by simp [closers, ne_of_isDigit hDigit]
      exact ⟨c, w ++ u, rfl, hOpeners, hClosers⟩
    | minus => exact ⟨'-', c :: w ++ u, rfl, by decide, by decide⟩
  cases h with
  | integer hSign hWhole _ => simpa using hNumber [] hSign hWhole
  | decimal hSign hWhole _ _ _ => exact hNumber _ hSign hWhole
  | null | true | false | notANumber _ | infinite _ | minusInfinite _ =>
    exact ⟨_, _, rfl, by decide, by decide⟩

theorem startsToken_of_isValue (h : IsValue d v t) : StartsToken t := by
  cases h with
  | scalar h =>
    obtain ⟨c, u, rfl, -, hc⟩ := head?_scalar h
    exact ⟨c, u, rfl, hc⟩
  | string _ | noItems _ | items _ _ | noMembers _ | members _ _ => exact ⟨_, _, rfl, by decide⟩

theorem startsToken_of_isItems (h : IsItems d vs t) : StartsToken t := by
  cases h with
  | last hValue _ | more hValue _ _ _ =>
    obtain ⟨c, u, rfl, hc⟩ := startsToken_of_isValue hValue
    exact ⟨c, _, rfl, hc⟩

theorem startsToken_of_isMembers (h : IsMembers d ms t) : StartsToken t := by
  cases h with
  | last hMember _ | more hMember _ _ _ =>
    cases hMember
    exact ⟨_, _, rfl, by decide⟩

mutual

/-- What stands for a value is read as that value. Each step takes a character at least, so more
fuel than characters is enough. -/
theorem value_of_isValue {v : Json} {t : Text} : IsValue d v t → ∀ fuel rest,
    t.length < fuel → EndsNumber rest → value fuel (t ++ rest) = .ok (v, rest)
  | .scalar (t := t) h => by
    rintro (_ | fuel) rest hFuel hEnd
    · omega
    have hOpener : ∀ c ∈ (t ++ rest).head?, c ∉ openers := by
      obtain ⟨c, u, rfl, hc, -⟩ := head?_scalar h
      rintro _ ⟨⟩
      exact hc
    rw [value_of_not_opener hOpener]
    exact scalar_read h hEnd
  | .string h => by
    rintro (_ | fuel) rest hFuel -
    · omega
    rw [List.cons_append, List.append_assoc]
    exact value_string_eq_ok_iff.mpr ⟨_, string_of_spells h rest, rfl⟩
  | .noItems hws => by
    rintro (_ | fuel) rest hFuel -
    · omega
    rw [List.cons_append, List.append_assoc]
    exact value_array_eq_ok_iff.mpr (Or.inl ⟨skipSpace_cons hws (by decide) rest, rfl⟩)
  | .items hws hItems => by
    rintro (_ | fuel) rest hFuel -
    · omega
    simp only [List.length_cons, List.length_append] at hFuel
    have hRead := elements_of_isItems hItems fuel rest (by omega)
    have hStarts := startsToken_of_isItems hItems
    rw [List.cons_append, List.append_assoc, value_array_eq_ok_iff, hStarts.skipSpace hws]
    exact Or.inr ⟨hStarts.head?_ne (by decide) rest, _, hRead, rfl⟩
  | .noMembers hws => by
    rintro (_ | fuel) rest hFuel -
    · omega
    rw [List.cons_append, List.append_assoc]
    exact value_object_eq_ok_iff.mpr (Or.inl ⟨skipSpace_cons hws (by decide) rest, rfl⟩)
  | .members hws hMembers => by
    rintro (_ | fuel) rest hFuel -
    · omega
    simp only [List.length_cons, List.length_append] at hFuel
    have hRead := members_of_isMembers hMembers fuel rest (by omega)
    have hStarts := startsToken_of_isMembers hMembers
    rw [List.cons_append, List.append_assoc, value_object_eq_ok_iff, hStarts.skipSpace hws]
    exact Or.inr ⟨hStarts.head?_ne (by decide) rest, _, hRead, rfl⟩

theorem elements_of_isItems {vs : List Json} {t : Text} : IsItems d vs t → ∀ fuel rest,
    t.length < fuel → elements fuel (t ++ rest) = .ok (vs, rest)
  | @IsItems.last _ _ ws _ hValue hws => by
    rintro (_ | fuel) rest hFuel
    · omega
    simp only [List.length_append, List.length_singleton] at hFuel
    simp only [List.append_assoc, List.singleton_append]
    -- the bracket ends a number, as white space in front of it does
    have hRead := value_of_isValue hValue fuel (ws ++ ']' :: rest) (by omega)
      (endsNumber_append hws (endsNumber_cons (by decide) rest))
    exact elements_eq_ok_iff.mpr
      ⟨_, _, hRead, Or.inl ⟨skipSpace_cons hws (by decide) rest, rfl⟩⟩
  | @IsItems.more _ _ _ ws ws' _ u hValue hws hws' hItems => by
    rintro (_ | fuel) rest hFuel
    · omega
    simp only [List.length_append, List.length_cons] at hFuel
    simp only [List.append_assoc, List.cons_append]
    have hRead := value_of_isValue hValue fuel (ws ++ ',' :: (ws' ++ (u ++ rest))) (by omega)
      (endsNumber_append hws (endsNumber_cons (by decide) _))
    have hReadRest := elements_of_isItems hItems fuel rest (by omega)
    rw [← (startsToken_of_isItems hItems).skipSpace hws' rest] at hReadRest
    exact elements_eq_ok_iff.mpr
      ⟨_, _, hRead, Or.inr ⟨_, _, skipSpace_cons hws (by decide) _, hReadRest, rfl⟩⟩

theorem readsMember_of_isMember {m : Text × Json} {t : Text} : IsMember d m t → ∀ fuel rest,
    t.length < fuel → EndsNumber rest → ReadsMember fuel (t ++ rest) m rest
  | .member hKey hws hws' hValue => by
    intro fuel rest hFuel hEnd
    simp only [List.length_append, List.length_cons] at hFuel
    simp only [List.append_assoc, List.cons_append]
    have hRead := value_of_isValue hValue fuel rest (by omega) hEnd
    rw [← (startsToken_of_isValue hValue).skipSpace hws' rest] at hRead
    exact ⟨_, _, _, rfl, string_of_spells hKey _, skipSpace_cons hws (by decide) _, hRead⟩

theorem members_of_isMembers {ms : List (Text × Json)} {t : Text} : IsMembers d ms t →
    ∀ fuel rest, t.length < fuel → members fuel (t ++ rest) = .ok (ms, rest)
  | @IsMembers.last _ _ ws _ hMember hws => by
    rintro (_ | fuel) rest hFuel
    · omega
    simp only [List.length_append, List.length_singleton] at hFuel
    simp only [List.append_assoc, List.singleton_append]
    have hRead := readsMember_of_isMember hMember fuel (ws ++ '}' :: rest) (by omega)
      (endsNumber_append hws (endsNumber_cons (by decide) rest))
    exact members_eq_ok_iff.mpr
      ⟨_, _, hRead, Or.inl ⟨skipSpace_cons hws (by decide) rest, rfl⟩⟩
  | @IsMembers.more _ _ _ ws ws' _ u hMember hws hws' hMembers => by
    rintro (_ | fuel) rest hFuel
    · omega
    simp only [List.length_append, List.length_cons] at hFuel
    simp only [List.append_assoc, List.cons_append]
    have hRead := readsMember_of_isMember hMember fuel (ws ++ ',' :: (ws' ++ (u ++ rest)))
      (by omega) (endsNumber_append hws (endsNumber_cons (by decide) _))
    have hReadRest := members_of_isMembers hMembers fuel rest (by omega)
    rw [← (startsToken_of_isMembers hMembers).skipSpace hws' rest] at hReadRest
    exact members_eq_ok_iff.mpr
      ⟨_, _, hRead, Or.inr ⟨_, _, skipSpace_cons hws (by decide) _, hReadRest, rfl⟩⟩

end

/-! ## What is read stands for a value -/

/-- With this fuel, what is read stands for what it is read as. -/
structure Sound (fuel : Nat) : Prop where
  value {v : Json} {t rest : Text} : value fuel t = .ok (v, rest) →
    ∃ e, IsValue .extended v e ∧ t = e ++ rest
  elements {vs : List Json} {t rest : Text} : elements fuel t = .ok (vs, rest) →
    ∃ e, IsItems .extended vs e ∧ t = e ++ rest
  members {ms : List (Text × Json)} {t rest : Text} : members fuel t = .ok (ms, rest) →
    ∃ e, IsMembers .extended ms e ∧ t = e ++ rest

theorem Sound.value_succ (hSound : Sound fuel) (h : Reader.value (fuel + 1) t = .ok (v, rest)) :
    ∃ e, IsValue .extended v e ∧ t = e ++ rest := by
  by_cases hOpener : ∀ c ∈ t.head?, c ∉ openers
  · rw [value_of_not_opener hOpener] at h
    -- a word, or else a number
    have hScalar : ∃ e, IsScalar .extended v e ∧ t = e ++ rest := by
      split at h
      · next hWord => exact isScalar_of_word? (hWord.trans (congrArg some (Except.ok.inj h)))
      · exact isScalar_of_number h
    obtain ⟨e, hScalar, rfl⟩ := hScalar
    exact ⟨e, .scalar hScalar, rfl⟩
  · push Not at hOpener
    obtain ⟨c, hHead, hc⟩ := hOpener
    obtain ⟨u, rfl⟩ := List.head?_eq_some_iff.mp hHead
    obtain ⟨ws, hws, hu⟩ := exists_spaces u
    simp only [openers, List.mem_cons, List.not_mem_nil, or_false] at hc
    rcases hc with rfl | rfl | rfl
    · obtain ⟨s, hString, rfl⟩ := value_string_eq_ok_iff.mp h
      obtain ⟨e, hSpells, rfl⟩ := spells_of_string hString
      exact ⟨_, .string hSpells, by simp⟩
    · rcases value_array_eq_ok_iff.mp h with ⟨hEnd, rfl⟩ | ⟨-, vs, hItems, rfl⟩
      · rw [hu, hEnd]
        exact ⟨_, .noItems hws, by simp⟩
      · obtain ⟨e, hIsItems, hSkip⟩ := hSound.elements hItems
        rw [hu, hSkip]
        exact ⟨_, .items hws hIsItems, by simp⟩
    · rcases value_object_eq_ok_iff.mp h with ⟨hEnd, rfl⟩ | ⟨-, ms, hMembers, rfl⟩
      · rw [hu, hEnd]
        exact ⟨_, .noMembers hws, by simp⟩
      · obtain ⟨e, hIsMembers, hSkip⟩ := hSound.members hMembers
        rw [hu, hSkip]
        exact ⟨_, .members hws hIsMembers, by simp⟩

theorem Sound.elements_succ (hSound : Sound fuel)
    (h : Reader.elements (fuel + 1) t = .ok (vs, rest)) :
    ∃ e, IsItems .extended vs e ∧ t = e ++ rest := by
  obtain ⟨v, u, hValue, hRest⟩ := elements_eq_ok_iff.mp h
  obtain ⟨e, hIsValue, rfl⟩ := hSound.value hValue
  obtain ⟨ws, hws, hu⟩ := exists_spaces u
  rcases hRest with ⟨hEnd, rfl⟩ | ⟨w, vs, hMore, hItems, rfl⟩
  · rw [hu, hEnd]
    exact ⟨_, .last hIsValue hws, by simp⟩
  · obtain ⟨ws', hws', hw⟩ := exists_spaces w
    obtain ⟨e', hIsItems, hSkip⟩ := hSound.elements hItems
    rw [hu, hMore, hw, hSkip]
    exact ⟨_, .more hIsValue hws hws' hIsItems, by simp⟩

theorem Sound.isMember (hSound : Sound fuel) (h : ReadsMember fuel t m rest) :
    ∃ e, IsMember .extended m e ∧ t = e ++ rest := by
  obtain ⟨u, w, x, rfl, hKey, hColon, hValue⟩ := h
  obtain ⟨e, hSpells, rfl⟩ := spells_of_string hKey
  obtain ⟨ws, hws, hw⟩ := exists_spaces w
  obtain ⟨ws', hws', hx⟩ := exists_spaces x
  obtain ⟨e', hIsValue, hSkip⟩ := hSound.value hValue
  rw [hw, hColon, hx, hSkip]
  exact ⟨_, .member hSpells hws hws' hIsValue, by simp⟩

theorem Sound.members_succ (hSound : Sound fuel)
    (h : Reader.members (fuel + 1) t = .ok (ms, rest)) :
    ∃ e, IsMembers .extended ms e ∧ t = e ++ rest := by
  obtain ⟨m, u, hMember, hRest⟩ := members_eq_ok_iff.mp h
  obtain ⟨e, hIsMember, rfl⟩ := hSound.isMember hMember
  obtain ⟨ws, hws, hu⟩ := exists_spaces u
  rcases hRest with ⟨hEnd, rfl⟩ | ⟨w, ms, hMore, hMembers, rfl⟩
  · rw [hu, hEnd]
    exact ⟨_, .last hIsMember hws, by simp⟩
  · obtain ⟨ws', hws', hw⟩ := exists_spaces w
    obtain ⟨e', hIsMembers, hSkip⟩ := hSound.members hMembers
    rw [hu, hMore, hw, hSkip]
    exact ⟨_, .more hIsMember hws hws' hIsMembers, by simp⟩

theorem sound (fuel : Nat) : Sound fuel := by
  induction fuel with
  | zero => exact ⟨nofun, nofun, nofun⟩
  | succ fuel ih => exact ⟨ih.value_succ, ih.elements_succ, ih.members_succ⟩

/-! ## Whole texts -/

theorem document_of_isDocument (h : IsDocument d v t) : document t = .ok v := by
  obtain ⟨ws, u, ws', hws, hValue, hws', rfl⟩ := h
  have hSkip := (startsToken_of_isValue hValue).skipSpace hws ws'
  have hFuel : u.length < enoughFuel (ws ++ (u ++ ws')) := by
    rw [enoughFuel, List.length_append, List.length_append]
    omega
  have hEnd : skipSpace ws' = [] := by
    rw [← List.append_nil ws']
    exact skipSpace_append hws' nofun
  have hNumber : EndsNumber ws' := by
    rw [← List.append_nil ws']
    exact endsNumber_append hws' endsNumber_nil
  rw [document, hSkip, bind_of_eq_ok (value_of_isValue hValue _ ws' hFuel hNumber)]
  simp only [hEnd]
  rfl

theorem isDocument_of_document (h : document t = .ok v) : IsDocument .extended v t := by
  obtain ⟨⟨v, rest⟩, hValue, h⟩ := exists_of_bind h
  obtain ⟨ws, hws, ht⟩ := exists_spaces t
  obtain ⟨ws', hws', hRest⟩ := exists_spaces rest
  obtain ⟨u, hIsValue, hSkip⟩ := (sound _).value hValue
  dsimp only at h
  split at h
  · next hEnd =>
    rw [hEnd, List.append_nil] at hRest
    obtain rfl := Except.ok.inj h
    exact ⟨ws, u, ws', hws, hIsValue, hws', by rw [← hRest, ← hSkip, ← ht]⟩
  · cases h

end Reader

/-- A text is read as a value if it is a document that stands for that value. -/
theorem read_of_isDocument {d : Dialect} {v : Json} {t : Text} (h : IsDocument d v t) :
    read t = .ok v := by
  rw [read, Reader.document_of_isDocument h]
  rfl

theorem read_of_isValue {d : Dialect} {v : Json} {t : Text} (h : IsValue d v t) : read t = .ok v :=
  read_of_isDocument ⟨[], t, [], nofun, h, nofun, by simp⟩

/-- A text is read as a value if and only if it is a document of the extended dialect that stands
for that value. -/
theorem read_eq_ok_iff {v : Json} {t : Text} : read t = .ok v ↔ IsDocument .extended v t := by
  refine ⟨fun h => Reader.isDocument_of_document ?_, read_of_isDocument⟩
  rw [read] at h
  cases hDocument : Reader.document t with
  | ok w =>
    rw [hDocument] at h
    exact congrArg Except.ok (Except.ok.inj h)
  | error f =>
    rw [hDocument] at h
    cases h

end FieldHint.Json
