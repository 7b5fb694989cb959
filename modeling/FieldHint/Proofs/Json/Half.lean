import FieldHint.Json.Half
import FieldHint.Proofs.Json.Lines
import FieldHint.Proofs.Text.Class

/-!
# JSON — halves of pairs

A text with halves of pairs in it is read twice, with one stand-in and with the other:

* `exists_becomes_document` — the text that is written anew is JSON for the same value, but for the
  other stand-ins, and proper JSON, in which there are no halves, is not changed at all;
* `read_respell` — so whatever can be read at all can be read in both ways.

Only what stands behind a backslash is changed, and it is gone through one escape at a time. An
escape is known as such only if something follows it, so the text of a string is gone through in
front of its closing quote (`exists_becomes_spells`).
-/

namespace FieldHint.Json

open Reader Text

variable {d : Dialect} {v : Json} {c : Char} {n : Nat} {a b a' b' e s s' t ws rest : Text}

/-! ## Stand-ins -/

theorem toNat_standIn (h : IsHalf n) : (standIn n).toNat = n + 0x1000 := by
  obtain ⟨hLow, hHigh⟩ := h
  rw [standIn, Char.toNat_ofNat, if_pos]
  unfold Nat.isValidChar
  omega

theorem toNat_otherStandIn (h : IsHalf n) : (otherStandIn n).toNat = n + 0x1800 := by
  obtain ⟨hLow, hHigh⟩ := h
  rw [otherStandIn, Char.toNat_ofNat, if_pos]
  unfold Nat.isValidChar
  omega

/-- The characters that stand in for halves of pairs, here or there. -/
def IsStandIn (c : Char) : Prop := 0xE800 ≤ c.toNat ∧ c.toNat < 0xF800

theorem isStandIn_standIn (h : IsHalf n) : IsStandIn (standIn n) := by
  have hLarge := toNat_standIn h
  obtain ⟨hLow, hHigh⟩ := h
  unfold IsStandIn
  omega

theorem isStandIn_otherStandIn (h : IsHalf n) : IsStandIn (otherStandIn n) := by
  have hLarge := toNat_otherStandIn h
  obtain ⟨hLow, hHigh⟩ := h
  unfold IsStandIn
  omega

theorem IsStandIn.ne (h : IsStandIn c) {x : Char} (hx : x.toNat < 0xE800) : c ≠ x := by
  rintro rfl
  obtain ⟨hLow, -⟩ := h
  omega

/-- In the tables of characters, those that stand in are a range of their own. -/
theorem IsStandIn.covers (h : IsStandIn c) : CharRanges.covers [(0xE800, 0xF7FF)] c = true := by
  obtain ⟨hLow, hHigh⟩ := h
  simp only [CharRanges.covers, List.any_cons, List.any_nil, Bool.or_false, Bool.and_eq_true,
    decide_eq_true_eq]
  omega

/-! ## Two readings -/

/-- The texts are readings of the same code points: a character is itself in both, and half a pair
is the one stand-in here and the other there. -/
inductive Readings : List Nat → Text → Text → Prop
  | nil : Readings [] [] []
  | char (c : Char) {points : List Nat} {s s' : Text} :
    Readings points s s' → Readings (c.toNat :: points) (c :: s) (c :: s')
  | half {n : Nat} {points : List Nat} {s s' : Text} : IsHalf n →
    Readings points s s' → Readings (n :: points) (standIn n :: s) (otherStandIn n :: s')

/-- The texts are readings of the same. -/
def TwinText (s s' : Text) : Prop := ∃ points, Readings points s s'

mutual

/-- The values are readings of the same JSON. -/
inductive Twin : Json → Json → Prop
  | same (v : Json) : Twin v v
  | string {s s' : Text} : TwinText s s' → Twin (.string s) (.string s')
  | array {vs vs' : List Json} : TwinItems vs vs' → Twin (.array vs) (.array vs')
  | object {ms ms' : List (Text × Json)} : TwinMembers ms ms' → Twin (.object ms) (.object ms')

/-- The lists of values are readings of the same, one by one. -/
inductive TwinItems : List Json → List Json → Prop
  | nil : TwinItems [] []
  | cons {v v' : Json} {vs vs' : List Json} :
    Twin v v' → TwinItems vs vs' → TwinItems (v :: vs) (v' :: vs')

/-- The members are readings of the same, keys and values. -/
inductive TwinMembers : List (Text × Json) → List (Text × Json) → Prop
  | nil : TwinMembers [] []
  | cons {k k' : Text} {v v' : Json} {ms ms' : List (Text × Json)} :
    TwinText k k' → Twin v v' → TwinMembers ms ms' →
      TwinMembers ((k, v) :: ms) ((k', v') :: ms')

end

namespace TwinText

@[refl] theorem refl : ∀ s, TwinText s s
  | [] => ⟨[], .nil⟩
  | c :: s =>
    let ⟨points, h⟩ := refl s
    ⟨c.toNat :: points, .char c h⟩

theorem char (c : Char) (h : TwinText s s') : TwinText (c :: s) (c :: s') :=
  h.imp' _ fun _ h => .char c h

theorem half (hHalf : IsHalf n) (h : TwinText s s') :
    TwinText (standIn n :: s) (otherStandIn n :: s') :=
  h.imp' _ fun _ h => .half hHalf h

end TwinText

/-! ## One escape -/

/-- The escapes of a character, of whatever form, are no halves. -/
theorem half?_of_writes (h : Writes c ('\\' :: e)) : half? e = none := by
  cases h with
  | raw _ hBackslash _ => exact absurd rfl hBackslash
  | @letter x _ hLetter =>
    simp only [letterEscapes, List.mem_cons, List.not_mem_nil, or_false, Prod.mk.injEq] at hLetter
    rcases hLetter with ⟨rfl, -⟩ | ⟨rfl, -⟩ | ⟨rfl, -⟩ | ⟨rfl, -⟩ | ⟨rfl, -⟩ | ⟨rfl, -⟩ |
      ⟨rfl, -⟩ | ⟨rfl, -⟩ <;> rfl
  | unit hUnit =>
    have hWhole := not_isHalf_toNat c
    rw [isHalf_iff, not_or] at hWhole
    rw [half?, (isCodeUnit_iff.mp hUnit).2]
    simpa using hWhole
  | @pair _ high low _ _ _ =>
    -- the second backslash is no digit, so a pair is no number
    cases hNumber : hexNumber? (high ++ '\\' :: 'u' :: low) with
    | none =>
      rw [half?, hNumber]
      rfl
    | some n =>
      have hDigits := (hexNumber?_eq_some_iff.mp hNumber).2
      have hMem : '\\' ∈ Text.hex (high ++ '\\' :: 'u' :: low).length n := by
        rw [← hDigits]
        exact List.mem_map.mpr ⟨'\\', by simp, by decide⟩
      obtain ⟨k, hk, hDigit⟩ := exists_hexDigit_of_mem hMem
      have hValue : hexValue? '\\' = some k := hexValue?_eq_some_iff.mpr ⟨hk, hDigit⟩
      cases hValue

theorem respellEscape_of_writes (h : Writes c ('\\' :: e)) : respellEscape e = '\\' :: e := by
  rw [respellEscape, half?_of_writes h]

theorem respellEscape_of_isHalf {digits : Text} (hHalf : IsHalf n) (hUnit : IsCodeUnit n digits) :
    respellEscape ('u' :: digits) = [otherStandIn n] := by
  have hNumber : half? ('u' :: digits) = some n := by
    rw [half?, (isCodeUnit_iff.mp hUnit).2, Option.filter_some, if_pos]
    simpa using isHalf_iff.mp hHalf
  rw [respellEscape, hNumber]

/-- What is read behind a backslash is gone through as one. -/
theorem respellFrom_escape (hRead : escapeSequence 0 (e ++ rest) = .ok (c, rest)) (fuel : Nat) :
    respellFrom (fuel + 1) ('\\' :: (e ++ rest)) = respellEscape e ++ respellFrom fuel rest := by
  have hTake : (e ++ rest).take ((e ++ rest).length - rest.length) = e := by
    rw [List.length_append, Nat.add_sub_cancel, List.take_left]
  rw [respellFrom, if_pos rfl, hRead]
  dsimp only
  rw [hTake]

/-! ## Text that is gone through -/

/-- The one text becomes the other in front of any text, whatever becomes of that; in proper JSON
it stays as it is. -/
structure Becomes (d : Dialect) (a b : Text) : Prop where
  respellFrom_append : ∀ t fuel, (a ++ t).length ≤ fuel →
    ∃ left, t.length ≤ left ∧ respellFrom fuel (a ++ t) = b ++ respellFrom left t
  eq_of_proper : d = .proper → b = a

theorem Becomes.append (h : Becomes d a b) (h' : Becomes d a' b') :
    Becomes d (a ++ a') (b ++ b') where
  respellFrom_append := by
    intro t fuel hFuel
    rw [List.append_assoc] at hFuel
    obtain ⟨left, hLeft, h⟩ := h.respellFrom_append (a' ++ t) fuel hFuel
    obtain ⟨left', hLeft', h'⟩ := h'.respellFrom_append t left hLeft
    exact ⟨left', hLeft', by rw [List.append_assoc, h, h', List.append_assoc]⟩
  eq_of_proper hProper := by rw [h.eq_of_proper hProper, h'.eq_of_proper hProper]

/-- A text without a backslash is kept. -/
theorem becomes_of_not_mem (ha : '\\' ∉ a) : Becomes d a a where
  respellFrom_append := by
    intro t
    induction a with
    | nil => exact fun fuel hFuel => ⟨fuel, hFuel, rfl⟩
    | cons c a ih =>
      rintro (_ | fuel) hFuel
      · cases hFuel
      · rw [List.mem_cons, not_or] at ha
        obtain ⟨left, hLeft, h⟩ := ih ha.2 fuel (Nat.le_of_succ_le_succ hFuel)
        refine ⟨left, hLeft, ?_⟩
        rw [List.cons_append, respellFrom, if_neg (Ne.symm ha.1), h]
        rfl
  eq_of_proper _ := rfl

theorem becomes_spaces (hws : IsSpaces ws) : Becomes d ws ws :=
  becomes_of_not_mem fun hMem => absurd (hws _ hMem) (by decide)

/-- A token of one character. -/
theorem becomes_mark (hc : c ≠ '\\') : Becomes d [c] [c] :=
  becomes_of_not_mem (by simpa using hc.symm)

/-- A bracket and white space in front of the rest. -/
theorem Becomes.spaced (h : Becomes d a b) (hc : c ≠ '\\') (hws : IsSpaces ws) :
    Becomes d (c :: (ws ++ a)) (c :: (ws ++ b)) :=
  (becomes_mark hc).append ((becomes_spaces hws).append h)

/-- An escape in front of a text, if it is read as it stands there. -/
theorem Becomes.escape (h : Becomes d a b)
    (hRead : ∀ t, escapeSequence 0 (e ++ (a ++ t)) = .ok (c, a ++ t))
    (hKept : d = .proper → respellEscape e = '\\' :: e) :
    Becomes d ('\\' :: (e ++ a)) (respellEscape e ++ b) where
  respellFrom_append := by
    rintro t (_ | fuel) hFuel
    · cases hFuel
    simp only [List.cons_append, List.append_assoc, List.length_cons, List.length_append] at hFuel
    obtain ⟨left, hLeft, hBecomes⟩ := h.respellFrom_append t fuel (by
      rw [List.length_append]
      omega)
    refine ⟨left, hLeft, ?_⟩
    rw [List.cons_append, List.append_assoc, respellFrom_escape (hRead t), hBecomes,
      List.append_assoc]
  eq_of_proper hProper := by
    rw [hKept hProper, h.eq_of_proper hProper]
    rfl

theorem Becomes.respell (h : Becomes d a b) : respell a = b := by
  obtain ⟨left, -, h⟩ := h.respellFrom_append [] a.length (by rw [List.append_nil])
  rw [List.append_nil] at h
  rw [Json.respell, h]
  cases left <;> exact List.append_nil b

/-! ## Strings -/

/-- A stand-in may stand in a string as it is. -/
theorem IsStandIn.writes (h : IsStandIn c) : Writes c [c] := by
  have hControl := h.1
  exact .raw (h.ne (by decide)) (h.ne (by decide)) (by omega)

/-- In the place of the text of a string, in front of the closing quote, there is the text of
another reading. -/
theorem exists_becomes_spells (h : Spells d s t) :
    ∃ s' u, TwinText s s' ∧ Spells d s' u ∧ Becomes d (t ++ ['"']) (u ++ ['"']) := by
  induction h with
  | nil => exact ⟨[], [], .refl [], .nil, becomes_mark (by decide)⟩
  | @char c e s t hWrites _ ih =>
    obtain ⟨s', u, hTwin, hSpells, hBecomes⟩ := ih
    refine ⟨c :: s', e ++ u, hTwin.char c, .char hWrites hSpells, ?_⟩
    rw [List.append_assoc, List.append_assoc]
    rcases writes_raw_or_escape hWrites with ⟨rfl, -, hBackslash, -⟩ | ⟨e, rfl⟩
    · exact (becomes_mark hBackslash).append hBecomes
    · have hEscape := respellEscape_of_writes hWrites
      have hKept := hBecomes.escape (e := e) (c := c)
        (fun v => escapeSequence_of_writes hWrites (by simp)) fun _ => hEscape
      rwa [hEscape] at hKept
  | @half n digits s t hExtended hHalf hUnit hApart hSpells ih =>
    obtain ⟨s', u, hTwin, hSpells', hBecomes⟩ := ih
    refine ⟨otherStandIn n :: s', [otherStandIn n] ++ u, hTwin.half hHalf,
      .char (isStandIn_otherStandIn hHalf).writes hSpells', ?_⟩
    have hReplaced := hBecomes.escape (e := 'u' :: digits) (c := standIn n)
      (fun v => by
        rw [List.append_assoc]
        exact escapeSequence_of_half hHalf hUnit hApart hSpells v)
      fun hProper => by cases hExtended.symm.trans hProper
    rw [respellEscape_of_isHalf hHalf hUnit] at hReplaced
    simpa using hReplaced

/-- So it is for the string with both its quotes. -/
theorem exists_becomes_string (h : Spells d s t) :
    ∃ s' u, TwinText s s' ∧ Spells d s' u ∧
      Becomes d ('"' :: (t ++ ['"'])) ('"' :: (u ++ ['"'])) := by
  obtain ⟨s', u, hTwin, hSpells, hBecomes⟩ := exists_becomes_spells h
  exact ⟨s', u, hTwin, hSpells, (becomes_mark (c := '"') (by decide)).append hBecomes⟩

/-! ## Values -/

mutual

/-- In the place of a value there is a value of another reading. -/
theorem exists_becomes {v : Json} {t : Text} : IsValue d v t →
    ∃ v' u, Twin v v' ∧ IsValue d v' u ∧ Becomes d t u
  | .scalar h => ⟨v, t, .same v, .scalar h, becomes_of_not_mem (not_mem_scalar (by decide) h)⟩
  | .string h => by
    obtain ⟨s', u, hTwin, hSpells, hBecomes⟩ := exists_becomes_string h
    exact ⟨_, _, .string hTwin, .string hSpells, hBecomes⟩
  | .noItems hws =>
    ⟨_, _, .same _, .noItems hws, (becomes_mark (by decide)).spaced (by decide) hws⟩
  | .items hws hItems => by
    obtain ⟨vs', u, hTwin, hIsItems, hBecomes⟩ := exists_becomes_items hItems
    exact ⟨_, _, .array hTwin, .items hws hIsItems, hBecomes.spaced (by decide) hws⟩
  | .noMembers hws =>
    ⟨_, _, .same _, .noMembers hws, (becomes_mark (by decide)).spaced (by decide) hws⟩
  | .members hws hMembers => by
    obtain ⟨ms', u, hTwin, hIsMembers, hBecomes⟩ := exists_becomes_members hMembers
    exact ⟨_, _, .object hTwin, .members hws hIsMembers, hBecomes.spaced (by decide) hws⟩

theorem exists_becomes_items {vs : List Json} {t : Text} : IsItems d vs t →
    ∃ vs' u, TwinItems vs vs' ∧ IsItems d vs' u ∧ Becomes d t u
  | .last hValue hws => by
    obtain ⟨v', u, hTwin, hIsValue, hBecomes⟩ := exists_becomes hValue
    exact ⟨_, _, .cons hTwin .nil, .last hIsValue hws,
      hBecomes.append ((becomes_spaces hws).append (becomes_mark (by decide)))⟩
  | .more hValue hws hws' hItems => by
    obtain ⟨v', u, hTwin, hIsValue, hBecomes⟩ := exists_becomes hValue
    obtain ⟨vs', w, hTwins, hIsItems, hBecomes'⟩ := exists_becomes_items hItems
    exact ⟨_, _, .cons hTwin hTwins, .more hIsValue hws hws' hIsItems,
      hBecomes.append ((becomes_spaces hws).append (hBecomes'.spaced (by decide) hws'))⟩

theorem exists_becomes_member {m : Text × Json} {t : Text} : IsMember d m t →
    ∃ k' v' u, TwinText m.1 k' ∧ Twin m.2 v' ∧ IsMember d (k', v') u ∧ Becomes d t u
  | .member hKey hws hws' hValue => by
    obtain ⟨k', u, hTwinKey, hSpells, hBecomes⟩ := exists_becomes_string hKey
    obtain ⟨v', w, hTwin, hIsValue, hBecomes'⟩ := exists_becomes hValue
    have hRest := hBecomes.append
      ((becomes_spaces hws).append (hBecomes'.spaced (c := ':') (by decide) hws'))
    refine ⟨k', v', _, hTwinKey, hTwin, .member hSpells hws hws' hIsValue, ?_⟩
    simpa only [List.cons_append, List.append_assoc, List.nil_append] using hRest

theorem exists_becomes_members {ms : List (Text × Json)} {t : Text} : IsMembers d ms t →
    ∃ ms' u, TwinMembers ms ms' ∧ IsMembers d ms' u ∧ Becomes d t u
  | .last hMember hws => by
    obtain ⟨k', v', u, hKey, hTwin, hIsMember, hBecomes⟩ := exists_becomes_member hMember
    exact ⟨_, _, .cons hKey hTwin .nil, .last hIsMember hws,
      hBecomes.append ((becomes_spaces hws).append (becomes_mark (by decide)))⟩
  | .more hMember hws hws' hMembers => by
    obtain ⟨k', v', u, hKey, hTwin, hIsMember, hBecomes⟩ := exists_becomes_member hMember
    obtain ⟨ms', w, hTwins, hIsMembers, hBecomes'⟩ := exists_becomes_members hMembers
    exact ⟨_, _, .cons hKey hTwin hTwins, .more hIsMember hws hws' hIsMembers,
      hBecomes.append ((becomes_spaces hws).append (hBecomes'.spaced (by decide) hws'))⟩

end

/-- In the place of a document there is a document of another reading. -/
theorem exists_becomes_document {v : Json} (h : IsDocument d v t) :
    ∃ v' u, Twin v v' ∧ IsDocument d v' u ∧ Becomes d t u := by
  obtain ⟨ws, t, ws', hws, hValue, hws', rfl⟩ := h
  obtain ⟨v', u, hTwin, hIsValue, hBecomes⟩ := exists_becomes hValue
  exact ⟨v', _, hTwin, ⟨ws, u, ws', hws, hIsValue, hws', rfl⟩,
    (becomes_spaces hws).append (hBecomes.append (becomes_spaces hws'))⟩

/-- What can be read can be read in the other way. -/
theorem read_respell (h : read t = .ok v) : ∃ v', Twin v v' ∧ read (respell t) = .ok v' := by
  obtain ⟨v', u, hTwin, hDocument, hBecomes⟩ := exists_becomes_document (read_eq_ok_iff.mp h)
  exact ⟨v', hTwin, by rw [hBecomes.respell, read_of_isDocument hDocument]⟩

end FieldHint.Json
