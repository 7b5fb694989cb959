import FieldHint.Json.Reader
import FieldHint.Proofs.Failure
import FieldHint.Proofs.Json.Grammar
import FieldHint.Proofs.Text.Hex

/-!
# JSON — strings are read as they are spelled

* `stringRest_of_spells` — what spells a text is read as that text;
* `spells_of_stringRest` — what is read as a text spells it, in the extended dialect.

The hard part are the escapes by code units. Half a pair is only read as a character if the other
half does not follow, and an escape that follows must be sound in either case.
-/

namespace FieldHint.Json.Reader

variable {d : Dialect} {c x : Char} {n m : Nat} {s t digits high low rest : Text} {opened : Nat}

/-! ## Code units -/

theorem length_hex (width n : Nat) : (Text.hex width n).length = width := by
  induction width generalizing n with
  | zero => rfl
  | succ width ih => rw [Text.hex, List.length_append, ih, List.length_singleton]

theorem isCodeUnit_iff :
    IsCodeUnit n digits ↔ digits.length = 4 ∧ Text.hexNumber? digits = some n := by
  rw [Text.hexNumber?_eq_some_iff]
  constructor
  · rintro ⟨hn, hDigits⟩
    have hLength : digits.length = 4 := by
      rw [← List.length_map Char.toLower, hDigits, length_hex]
    rw [hLength]
    exact ⟨rfl, hn, hDigits⟩
  · rintro ⟨hLength, hn, hDigits⟩
    rw [hLength] at hn hDigits
    exact ⟨hn, hDigits⟩

/-- A code unit is read if something follows it. -/
theorem codeUnit?_eq_some_iff :
    codeUnit? t = some (n, rest) ↔
      rest ≠ [] ∧ ∃ digits, IsCodeUnit n digits ∧ t = digits ++ rest := by
  simp only [isCodeUnit_iff]
  constructor
  · intro h
    unfold codeUnit? at h
    split at h
    · cases h
    · next hne =>
      obtain ⟨n, hNumber, h⟩ := Option.map_eq_some_iff.mp h
      obtain ⟨rfl, rfl⟩ := Prod.mk.inj h
      have hLong : 4 ≤ t.length := by
        by_contra hShort
        exact hne (List.drop_eq_nil_of_le (by omega))
      exact ⟨hne, t.take 4, ⟨List.length_take_of_le hLong, hNumber⟩,
        (List.take_append_drop 4 t).symm⟩
  · rintro ⟨hne, digits, ⟨hLength, hNumber⟩, rfl⟩
    rw [codeUnit?, ← hLength, List.drop_left, List.take_left, hNumber]
    cases rest with
    | nil => exact absurd rfl hne
    | cons c rest => rfl

theorem escape?_eq_some_iff : escape? x = some c ↔ (x, c) ∈ letterEscapes := by
  simp only [letterEscapes, List.mem_cons, List.not_mem_nil, or_false, Prod.mk.injEq]
  constructor
  · intro h
    unfold escape? at h
    split at h <;> simp_all [eq_comm]
  · rintro (⟨rfl, rfl⟩ | ⟨rfl, rfl⟩ | ⟨rfl, rfl⟩ | ⟨rfl, rfl⟩ | ⟨rfl, rfl⟩ | ⟨rfl, rfl⟩ |
      ⟨rfl, rfl⟩ | ⟨rfl, rfl⟩) <;> rfl

/-! ## Escapes -/

theorem isHalf_iff : IsHalf n ↔ isHighSurrogate n = true ∨ isLowSurrogate n = true := by
  simp only [IsHalf, isHighSurrogate, isLowSurrogate, Bool.and_eq_true, decide_eq_true_eq]
  omega

theorem isLowSurrogate_iff : isLowSurrogate n = true ↔ 0xDC00 ≤ n ∧ n < 0xE000 := by
  simp only [isLowSurrogate, Bool.and_eq_true, decide_eq_true_eq]

theorem isHighSurrogate_iff : isHighSurrogate n = true ↔ 0xD800 ≤ n ∧ n < 0xDC00 := by
  simp only [isHighSurrogate, Bool.and_eq_true, decide_eq_true_eq]

theorem toNat_ofCodeUnit (hn : n < 0x10000) (hHalf : ¬ IsHalf n) : (ofCodeUnit n).toNat = n := by
  rw [isHalf_iff] at hHalf
  have hValid : n.isValidChar := by
    simp only [isHighSurrogate_iff, isLowSurrogate_iff] at hHalf
    unfold Nat.isValidChar
    omega
  rw [ofCodeUnit, if_neg (by simpa using hHalf), Char.toNat_ofNat, if_pos hValid]

theorem ofCodeUnit_half (hHalf : IsHalf n) : ofCodeUnit n = standIn n := by
  rw [ofCodeUnit, if_pos (by simpa using isHalf_iff.mp hHalf)]

theorem not_isHalf_toNat (c : Char) : ¬ IsHalf c.toNat := by
  have hValid := c.valid
  unfold UInt32.isValidChar Nat.isValidChar at hValid
  rw [Char.toNat_val] at hValid
  unfold IsHalf
  omega

theorem toNat_lt (c : Char) : c.toNat < 0x110000 := by
  have hValid := c.valid
  unfold UInt32.isValidChar Nat.isValidChar at hValid
  rw [Char.toNat_val] at hValid
  omega

theorem toNat_ofPair (hn : isHighSurrogate n = true) (hm : isLowSurrogate m = true) :
    (ofPair n m).toNat = 0x10000 + (n - 0xD800) * 0x400 + (m - 0xDC00) := by
  rw [isHighSurrogate_iff] at hn
  rw [isLowSurrogate_iff] at hm
  rw [ofPair, Char.toNat_ofNat, if_pos]
  unfold Nat.isValidChar
  omega

/-- A code unit that starts no pair is read by itself. -/
theorem unicodeEscape_alone (hn : IsCodeUnit n digits) (hne : rest ≠ [])
    (hAlone : isHighSurrogate n = true → ∀ u, rest = '\\' :: 'u' :: u →
      ∃ m v, codeUnit? u = some (m, v) ∧ isLowSurrogate m = false) :
    unicodeEscape (digits ++ rest) = .ok (ofCodeUnit n, rest) := by
  rw [unicodeEscape, codeUnit?_eq_some_iff.mpr ⟨hne, digits, hn, rfl⟩]
  dsimp only
  split
  · next u hHigh =>
    obtain ⟨m, v, hNext, hLow⟩ := hAlone hHigh u rfl
    simp [hNext, hLow]
  · rfl

theorem unicodeEscape_pair (hn : IsCodeUnit n high) (hHigh : isHighSurrogate n = true)
    (hm : IsCodeUnit m low) (hLow : isLowSurrogate m = true) (hne : rest ≠ []) :
    unicodeEscape (high ++ '\\' :: 'u' :: (low ++ rest)) = .ok (ofPair n m, rest) := by
  have hNext : codeUnit? (low ++ rest) = some (m, rest) :=
    codeUnit?_eq_some_iff.mpr ⟨hne, low, hm, rfl⟩
  have hLong : ((low ++ rest).drop 4).isEmpty = false := by
    rw [← (isCodeUnit_iff.mp hm).1, List.drop_left]
    simpa using hne
  rw [unicodeEscape, codeUnit?_eq_some_iff.mpr ⟨by simp, high, hn, rfl⟩]
  simp [hHigh, hLong, hNext, hLow]

/-- What is read as a character: one code unit by itself, or both of a pair. -/
theorem unicodeEscape_eq_ok (h : unicodeEscape t = .ok (c, rest)) :
    (∃ n digits, IsCodeUnit n digits ∧ t = digits ++ rest ∧ c = ofCodeUnit n ∧
      (isHighSurrogate n = true → ∀ u, rest = '\\' :: 'u' :: u →
        ∀ m v, codeUnit? u = some (m, v) → isLowSurrogate m = false)) ∨
    ∃ n high m low, IsCodeUnit n high ∧ isHighSurrogate n = true ∧ IsCodeUnit m low ∧
      isLowSurrogate m = true ∧ t = high ++ '\\' :: 'u' :: (low ++ rest) ∧ c = ofPair n m := by
  unfold unicodeEscape at h
  split at h
  · cases h
  · next n rest' hUnit =>
    obtain ⟨hne, digits, hn, rfl⟩ := codeUnit?_eq_some_iff.mp hUnit
    split at h
    · next u hHigh =>
      split at h
      · next hShort =>
        -- nothing follows what may be another escape, so it is none
        obtain ⟨rfl, rfl⟩ := Prod.mk.inj (Except.ok.inj h)
        refine Or.inl ⟨n, digits, hn, rfl, rfl, fun _ v hv m w hNext => ?_⟩
        obtain rfl : u = v := by simpa using hv
        rw [codeUnit?, List.isEmpty_iff.mp hShort] at hNext
        cases hNext
      · split at h
        · cases h
        · next m v hNext =>
          split at h
          · next hLow =>
            obtain ⟨rfl, rfl⟩ := Prod.mk.inj (Except.ok.inj h)
            obtain ⟨-, low, hm, rfl⟩ := codeUnit?_eq_some_iff.mp hNext
            exact Or.inr ⟨n, digits, m, low, hn, hHigh, hm, hLow, rfl, rfl⟩
          · next hLow =>
            obtain ⟨rfl, rfl⟩ := Prod.mk.inj (Except.ok.inj h)
            refine Or.inl ⟨n, digits, hn, rfl, rfl, fun _ w hw m' v' hNext' => ?_⟩
            obtain rfl : u = w := by simpa using hw
            obtain ⟨rfl, rfl⟩ := Prod.mk.inj (Option.some.inj (hNext.symm.trans hNext'))
            exact Bool.eq_false_of_not_eq_true hLow
    · next hApart =>
      obtain ⟨rfl, rfl⟩ := Prod.mk.inj (Except.ok.inj h)
      exact Or.inl ⟨n, digits, hn, rfl, rfl, fun hHigh u hu => (hApart u hHigh hu).elim⟩

/-! ## Reading what is spelled -/

/-- A character is read as it is written behind a backslash. -/
theorem escapeSequence_of_writes (h : Writes c ('\\' :: t)) (hne : rest ≠ []) :
    escapeSequence opened (t ++ rest) = .ok (c, rest) := by
  cases h with
  | raw _ hBackslash _ => exact absurd rfl hBackslash
  | @letter x _ hLetter =>
    have hEscape : escape? x = some c := escape?_eq_some_iff.mpr hLetter
    rw [List.singleton_append, escapeSequence, hEscape]
    rintro rfl
    cases hEscape
  | unit hUnit =>
    have hAlone : isHighSurrogate c.toNat = false := by
      rw [← Bool.not_eq_true]
      exact fun hHigh => not_isHalf_toNat c (isHalf_iff.mpr (Or.inl hHigh))
    have hChar : ofCodeUnit c.toNat = c :=
      Char.toNat_inj.mp (toNat_ofCodeUnit hUnit.lt (not_isHalf_toNat c))
    rw [List.cons_append, escapeSequence,
      unicodeEscape_alone hUnit hne fun hHigh => by simp [hAlone] at hHigh, hChar]
  | pair hLarge hHigh hLow =>
    have hLt := toNat_lt c
    have hIsHigh : isHighSurrogate (0xD800 + (c.toNat - 0x10000) / 0x400) = true :=
      isHighSurrogate_iff.mpr (by omega)
    have hIsLow : isLowSurrogate (0xDC00 + (c.toNat - 0x10000) % 0x400) = true :=
      isLowSurrogate_iff.mpr (by omega)
    have hChar : ofPair (0xD800 + (c.toNat - 0x10000) / 0x400)
        (0xDC00 + (c.toNat - 0x10000) % 0x400) = c := by
      rw [← Char.toNat_inj, toNat_ofPair hIsHigh hIsLow]
      omega
    simp only [List.cons_append, List.append_assoc]
    rw [escapeSequence, unicodeEscape_pair hHigh hIsHigh hLow hIsLow hne, hChar]

theorem writes_raw_or_escape (h : Writes c t) :
    (t = [c] ∧ c ≠ '"' ∧ c ≠ '\\' ∧ 0x20 ≤ c.toNat) ∨ ∃ u, t = '\\' :: u := by
  cases h with
  | raw hQuote hBackslash hControl => exact Or.inl ⟨rfl, hQuote, hBackslash, hControl⟩
  | letter _ => exact Or.inr ⟨_, rfl⟩
  | unit _ => exact Or.inr ⟨_, rfl⟩
  | pair _ _ _ => exact Or.inr ⟨_, rfl⟩

/-- In what is spelled, an escape by a code unit is sound. -/
theorem exists_codeUnit_of_spells {u : Text} (h : Spells d s ('\\' :: 'u' :: u)) :
    ∃ m digits v, IsCodeUnit m digits ∧ u = digits ++ v := by
  generalize hu : '\\' :: 'u' :: u = w at h
  cases h with
  | nil => cases hu
  | char hWrites _ =>
    cases hWrites with
    | raw _ hBackslash _ => exact absurd (List.cons.inj hu).1.symm hBackslash
    | letter hLetter =>
      obtain rfl : 'u' = _ := (List.cons.inj (List.cons.inj hu).2).1
      exact absurd (escape?_eq_some_iff.mpr hLetter) (by simp [escape?])
    | unit hUnit => exact ⟨_, _, _, hUnit, (List.cons.inj (List.cons.inj hu).2).2⟩
    | pair _ hHigh _ =>
      rw [List.cons_append, List.cons_append, List.append_assoc] at hu
      exact ⟨_, _, _, hHigh, (List.cons.inj (List.cons.inj hu).2).2⟩
  | half _ _ hUnit _ _ => exact ⟨_, _, _, hUnit, (List.cons.inj (List.cons.inj hu).2).2⟩

/-- Half a pair is read as its stand-in, if the other half does not follow in the string. -/
theorem escapeSequence_of_half (hHalf : IsHalf n) (hUnit : IsCodeUnit n digits)
    (hApart : ¬ Joins n t) (hSpells : Spells d s t) (rest : Text) :
    escapeSequence opened ('u' :: (digits ++ (t ++ '"' :: rest))) =
      .ok (standIn n, t ++ '"' :: rest) := by
  rw [escapeSequence, unicodeEscape_alone hUnit (by simp), ofCodeUnit_half hHalf]
  -- if an escape by a code unit follows, it is sound, and no second half
  intro hHigh v hv
  obtain ⟨w, rfl, rfl⟩ : ∃ w, t = '\\' :: 'u' :: w ∧ v = w ++ '"' :: rest := by
    rcases t with _ | ⟨x, _ | ⟨y, w⟩⟩
    · simp at hv
    · simp at hv
    · simp only [List.cons_append, List.cons.injEq] at hv
      exact ⟨w, by rw [hv.1, hv.2.1], hv.2.2.symm⟩
  obtain ⟨m, low, z, hm, rfl⟩ := exists_codeUnit_of_spells hSpells
  refine ⟨m, z ++ '"' :: rest, codeUnit?_eq_some_iff.mpr ⟨by simp, low, hm, by simp⟩, ?_⟩
  rw [← Bool.not_eq_true, isLowSurrogate_iff]
  intro hLow
  exact hApart ⟨(isHighSurrogate_iff.mp hHigh).2, m, low, z, hLow.1, hLow.2, hm, rfl⟩

section

variable {fuel : Nat} {u v : Text}

theorem stringRest_raw (hQuote : c ≠ '"') (hBackslash : c ≠ '\\') (hControl : 0x20 ≤ c.toNat)
    (h : stringRest opened fuel t = .ok (s, rest)) :
    stringRest opened (fuel + 1) (c :: t) = .ok (c :: s, rest) := by
  rw [stringRest, if_neg hQuote, if_neg hBackslash, if_neg (by omega)]
  exact wrap_eq_ok_iff.mpr ⟨s, h, rfl⟩

theorem stringRest_escape (hEscape : escapeSequence opened t = .ok (c, u))
    (h : stringRest opened fuel u = .ok (s, rest)) :
    stringRest opened (fuel + 1) ('\\' :: t) = .ok (c :: s, rest) := by
  rw [stringRest, if_neg (by decide), if_pos rfl, bind_of_eq_ok hEscape]
  exact wrap_eq_ok_iff.mpr ⟨s, h, rfl⟩

end

/-- What spells a text is read as that text, up to the closing quote. -/
theorem stringRest_of_spells (h : Spells d s t) (opened : Nat) (rest : Text) :
    ∀ fuel, t.length < fuel → stringRest opened fuel (t ++ '"' :: rest) = .ok (s, rest) := by
  induction h with
  | nil =>
    rintro (_ | fuel) hFuel
    · omega
    · rfl
  | @char c e s t hWrites _ ih =>
    rintro (_ | fuel) hFuel
    · omega
    rcases writes_raw_or_escape hWrites with ⟨rfl, hQuote, hBackslash, hControl⟩ | ⟨u, rfl⟩
    · rw [List.singleton_append, List.length_cons] at hFuel
      exact stringRest_raw hQuote hBackslash hControl (ih fuel (by omega))
    · rw [List.cons_append, List.length_cons, List.length_append] at hFuel
      rw [List.cons_append, List.cons_append, List.append_assoc]
      exact stringRest_escape (escapeSequence_of_writes hWrites (by simp)) (ih fuel (by omega))
  | @half n digits s t _ hHalf hUnit hApart hSpells ih =>
    rintro (_ | fuel) hFuel
    · omega
    simp only [List.length_cons, List.length_append] at hFuel
    rw [List.cons_append, List.cons_append, List.append_assoc]
    exact stringRest_escape (escapeSequence_of_half hHalf hUnit hApart hSpells rest)
      (ih fuel (by omega))

/-! ## Spelling what is read -/

/-- What is read behind a backslash is a character that is written so, or half a pair whose other
half does not follow. -/
theorem escapeSequence_eq_ok (h : escapeSequence opened t = .ok (c, rest)) :
    (∃ e, t = e ++ rest ∧ Writes c ('\\' :: e)) ∨
    ∃ n digits, t = 'u' :: (digits ++ rest) ∧ c = standIn n ∧ IsHalf n ∧ IsCodeUnit n digits ∧
      ∀ u v, rest = u ++ '"' :: v → ¬ Joins n u := by
  unfold escapeSequence at h
  split at h
  · cases h
  · next t =>
    rcases unicodeEscape_eq_ok h with ⟨n, digits, hn, rfl, hc, hAlone⟩ |
      ⟨n, high, m, low, hn, hHigh, hm, hLow, rfl, hc⟩
    · by_cases hHalf : IsHalf n
      · refine Or.inr ⟨n, digits, rfl, hc.trans (ofCodeUnit_half hHalf), hHalf, hn, ?_⟩
        rintro u v rfl ⟨hLt, m, low, w, hLow, hLow', hm, rfl⟩
        have hNext : codeUnit? (low ++ (w ++ '"' :: v)) = some (m, w ++ '"' :: v) :=
          codeUnit?_eq_some_iff.mpr ⟨by simp, low, hm, rfl⟩
        have hIsLow := hAlone (isHighSurrogate_iff.mpr ⟨hHalf.1, hLt⟩) (low ++ (w ++ '"' :: v))
          (by simp only [List.cons_append, List.append_assoc]) m (w ++ '"' :: v) hNext
        rw [isLowSurrogate_iff.mpr ⟨hLow, hLow'⟩] at hIsLow
        cases hIsLow
      · refine Or.inl ⟨'u' :: digits, rfl, .unit ?_⟩
        rwa [hc, toNat_ofCodeUnit hn.lt hHalf]
    · have hChar := toNat_ofPair hHigh hLow
      rw [← hc] at hChar
      rw [isHighSurrogate_iff] at hHigh
      rw [isLowSurrogate_iff] at hLow
      have hDiv : 0xD800 + (c.toNat - 0x10000) / 0x400 = n := by omega
      have hMod : 0xDC00 + (c.toNat - 0x10000) % 0x400 = m := by omega
      exact Or.inl ⟨'u' :: (high ++ '\\' :: 'u' :: low), by simp,
        .pair (by omega) (hDiv ▸ hn) (hMod ▸ hm)⟩
  · next x t _ =>
    split at h
    · next hEscape =>
      obtain ⟨rfl, rfl⟩ := Prod.mk.inj (Except.ok.inj h)
      exact Or.inl ⟨[x], rfl, .letter (escape?_eq_some_iff.mp hEscape)⟩
    · cases h

/-- What is read as a text spells it, and the closing quote follows. -/
theorem spells_of_stringRest {fuel : Nat} (h : stringRest opened fuel t = .ok (s, rest)) :
    ∃ e, Spells .extended s e ∧ t = e ++ '"' :: rest := by
  induction fuel generalizing t s with
  | zero => cases h
  | succ fuel ih =>
    cases t with
    | nil => cases h
    | cons c t =>
      rw [stringRest] at h
      split_ifs at h with hQuote hBackslash hControl
      · obtain ⟨rfl, rfl⟩ := Prod.mk.inj (Except.ok.inj h)
        exact ⟨[], .nil, by rw [hQuote]; rfl⟩
      · obtain ⟨⟨x, u⟩, hEscape, h⟩ := exists_of_bind h
        obtain ⟨s, hRest, rfl⟩ := wrap_eq_ok_iff.mp h
        obtain ⟨e, hSpells, rfl⟩ := ih hRest
        rw [hBackslash]
        rcases escapeSequence_eq_ok hEscape with ⟨f, rfl, hWrites⟩ |
          ⟨n, digits, rfl, hx, hHalf, hn, hApart⟩
        · exact ⟨'\\' :: f ++ e, .char hWrites hSpells, by simp⟩
        · rw [hx]
          exact ⟨'\\' :: 'u' :: (digits ++ e),
            .half rfl hHalf hn (hApart e rest rfl) hSpells, by simp⟩
      · obtain ⟨⟨s, rest⟩, hRest, h⟩ := exists_of_bind h
        obtain ⟨rfl, rfl⟩ := Prod.mk.inj (Except.ok.inj h)
        obtain ⟨e, hSpells, rfl⟩ := ih hRest
        exact ⟨[c] ++ e, .char (.raw hQuote hBackslash (by omega)) hSpells, rfl⟩

/-! ## Strings as a whole -/

theorem string_of_spells (h : Spells d s t) (rest : Text) :
    string (t ++ '"' :: rest) = .ok (s, rest) := by
  refine stringRest_of_spells h _ rest _ ?_
  rw [List.length_append, List.length_cons]
  omega

theorem spells_of_string (h : string t = .ok (s, rest)) :
    ∃ e, Spells .extended s e ∧ t = e ++ '"' :: rest :=
  spells_of_stringRest h

end FieldHint.Json.Reader
