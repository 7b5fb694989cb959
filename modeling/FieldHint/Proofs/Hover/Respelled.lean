import FieldHint.Proofs.Hover.Saved
import FieldHint.Proofs.Json.Half

/-!
# Hover — responses with halves of pairs

A saved response is read twice, with one stand-in for halves of pairs and with the other:

* `describe?_respelled` — both times it describes a type, or neither time, and what it says are two
  readings of the same code points;
* `isWhole_hoverFile` — a response that is markdown or proper JSON says the same both times, and so
  the struct that is read from it shows no half.

The reader of payloads looks at the keys of members and for blanks, and a stand-in is neither in a
key that counts nor a blank.
-/

namespace FieldHint

namespace Json

variable {c : Char} {key s s' t t' : Text} {points : List Nat} {ms ms' : List (Text × Json)}

/-! ## Texts -/

theorem TwinText.append (h : TwinText s s') (h' : TwinText t t') :
    TwinText (s ++ t) (s' ++ t') := by
  obtain ⟨points, h⟩ := h
  induction h with
  | nil => exact h'
  | char c _ ih => exact ih.char c
  | half hHalf _ ih => exact ih.half hHalf

/-- A text without stand-ins is read where it stands, and nowhere else. -/
theorem TwinText.eq_iff (h : TwinText s s') (hKey : ∀ c ∈ key, c.toNat < 0xE800) :
    s = key ↔ s' = key := by
  obtain ⟨points, h⟩ := h
  induction h generalizing key with
  | nil => rfl
  | char c _ ih =>
    cases key with
    | nil => simp
    | cons x key =>
      rw [List.cons.injEq, List.cons.injEq, ih fun c hc => hKey c (List.mem_cons_of_mem x hc)]
  | half hHalf _ _ =>
    -- the key would start with a stand-in
    constructor <;> rintro rfl
    · exact absurd rfl ((isStandIn_standIn hHalf).ne (hKey _ List.mem_cons_self))
    · exact absurd rfl ((isStandIn_otherStandIn hHalf).ne (hKey _ List.mem_cons_self))

theorem IsStandIn.isBlank_eq (h : IsStandIn c) : Text.isBlank c = false :=
  Text.covers_eq_false_of_apart (by decide +kernel) h.covers

theorem TwinText.isBlankText_eq (h : TwinText s s') :
    Text.isBlankText s = Text.isBlankText s' := by
  obtain ⟨points, h⟩ := h
  induction h with
  | nil => rfl
  | @char c _ s s' _ ih =>
    show (Text.isBlank c && Text.isBlankText s) = (Text.isBlank c && Text.isBlankText s')
    rw [ih]
  | @half n _ s s' hHalf _ _ =>
    show (Text.isBlank (standIn n) && Text.isBlankText s) =
      (Text.isBlank (otherStandIn n) && Text.isBlankText s')
    rw [(isStandIn_standIn hHalf).isBlank_eq, (isStandIn_otherStandIn hHalf).isBlank_eq]
    rfl

/-! ## Members -/

/-- A key is looked up in both readings with the same success. -/
theorem member?_twin {ms ms' : List (Text × Json)} (hKey : ∀ c ∈ key, c.toNat < 0xE800) :
    TwinMembers ms ms' → Option.Rel Twin (member? ms key) (member? ms' key)
  | .nil => .none
  | @TwinMembers.cons k k' v v' ms ms' hTwinKey hTwin hMembers => by
    rw [member?_cons, member?_cons]
    have hRest := member?_twin hKey hMembers
    generalize member? ms key = found, member? ms' key = found' at hRest
    cases hRest with
    | some h => exact .some h
    | none =>
      by_cases hHere : k = key
      · rw [if_pos hHere, if_pos ((hTwinKey.eq_iff hKey).mp hHere)]
        exact .some hTwin
      · rw [if_neg hHere, if_neg fun h => hHere ((hTwinKey.eq_iff hKey).mpr h)]
        exact .none

end Json

namespace Hover

open Json

variable {s s' raw : Text} {ms ms' : List (Text × Json)}

/-! ## Payloads -/

/-- No key that is looked for has a stand-in in it. -/
theorem toNat_lt_of_mem_key (key : Text)
    (hKey : key ∈ [resultKey, contentsKey, valueKey, languageKey]) :
    ∀ c ∈ key, c.toNat < 0xE800 := by
  have hAll : ∀ key ∈ [resultKey, contentsKey, valueKey, languageKey],
      key.all (fun c => c.toNat < 0xE800) = true := by decide
  simpa only [List.all_eq_true, decide_eq_true_eq] using hAll key hKey

theorem nonblank?_twin (h : TwinText s s') :
    Option.Rel TwinText (nonblank? s) (nonblank? s') := by
  rw [nonblank?, nonblank?, h.isBlankText_eq]
  split
  · exact .none
  · exact .some h

theorem asString?_twin {v v' : Json} (h : Twin v v') :
    Option.Rel TwinText (asString? v) (asString? v') := by
  cases h with
  | same v =>
    cases v with
    | string t => exact .some (.refl t)
    | _ => exact .none
  | string h => exact .some h
  | array _ | object _ => exact .none

/-- A lookup of a string. -/
theorem bind_asString?_twin {o o' : Option Json} (h : Option.Rel Twin o o') :
    Option.Rel TwinText (o.bind asString?) (o'.bind asString?) := by
  cases h with
  | none => exact .none
  | some h => exact asString?_twin h

theorem shown_twin {language language' : Option Text}
    (hLanguage : Option.Rel TwinText language language') (h : TwinText s s') :
    TwinText (shown language s) (shown language' s') := by
  cases hLanguage with
  | none => exact h
  | @some language language' hLanguage =>
    have hEmpty : language = [] ↔ language' = [] := hLanguage.eq_iff (by simp)
    by_cases hNone : language = []
    · rw [shown, shown, if_pos hNone, if_pos (hEmpty.mp hNone)]
      exact h
    · rw [shown, shown, if_neg hNone, if_neg (mt hEmpty.mpr hNone)]
      exact (((((TwinText.refl _).append hLanguage).append (.refl _)).append h).append
        (.refl _)).append (.refl _)

theorem marked?_twin (h : TwinMembers ms ms') :
    Option.Rel TwinText (marked? ms) (marked? ms') := by
  have hValue := bind_asString?_twin
    (member?_twin (toNat_lt_of_mem_key valueKey (by simp)) h)
  have hLanguage := bind_asString?_twin
    (member?_twin (toNat_lt_of_mem_key languageKey (by simp)) h)
  rw [marked?_eq_shown, marked?_eq_shown]
  generalize (member? ms valueKey).bind asString? = value,
    (member? ms' valueKey).bind asString? = value' at hValue
  cases hValue with
  | none => exact .none
  | @some value value' hValue =>
    show Option.Rel TwinText ((nonblank? value).map _) ((nonblank? value').map _)
    have hNonblank := nonblank?_twin hValue
    generalize nonblank? value = visible, nonblank? value' = visible' at hNonblank
    cases hNonblank with
    | none => exact .none
    | some hVisible => exact .some (shown_twin hLanguage hVisible)

mutual

/-- The texts of two readings of a payload are readings of the same text. -/
theorem text?_twin {v v' : Json} : Twin v v' → Option.Rel TwinText (text? v) (text? v')
  | .same v => by
    cases text? v with
    | none => exact .none
    | some t => exact .some (.refl t)
  | .string h => nonblank?_twin h
  | .array h => firstText?_twin h
  | @Twin.object ms ms' h => by
    rw [text?, text?]
    have hResult := memberText?_twin (toNat_lt_of_mem_key resultKey (by simp)) h
    have hContents := memberText?_twin (toNat_lt_of_mem_key contentsKey (by simp)) h
    generalize memberText? resultKey ms = found, memberText? resultKey ms' = found' at hResult
    generalize memberText? contentsKey ms = inner, memberText? contentsKey ms' = inner' at hContents
    cases hResult with
    | some hFound => exact hFound
    | none =>
      cases hContents with
      | some hInner => exact hInner
      | none => exact marked?_twin h

theorem firstText?_twin {vs vs' : List Json} : TwinItems vs vs' →
    Option.Rel TwinText (firstText? vs) (firstText? vs')
  | .nil => .none
  | @TwinItems.cons v v' vs vs' hTwin hItems => by
    rw [firstText?, firstText?]
    have hHead := text?_twin hTwin
    generalize text? v = found, text? v' = found' at hHead
    cases hHead with
    | some hFound => exact .some hFound
    | none => exact firstText?_twin hItems

theorem memberText?_twin {key : Text} {ms ms' : List (Text × Json)}
    (hKey : ∀ c ∈ key, c.toNat < 0xE800) : TwinMembers ms ms' →
      Option.Rel (Option.Rel TwinText) (memberText? key ms) (memberText? key ms')
  | .nil => .none
  | @TwinMembers.cons k k' v v' ms ms' hTwinKey hTwin hMembers => by
    rw [memberText?, memberText?]
    have hRest := memberText?_twin hKey hMembers
    have hText := text?_twin hTwin
    generalize memberText? key ms = found, memberText? key ms' = found' at hRest
    cases hRest with
    | some hFound => exact .some hFound
    | none =>
      by_cases hHere : k = key
      · rw [if_pos hHere, if_pos ((hTwinKey.eq_iff hKey).mp hHere)]
        exact .some hText
      · rw [if_neg hHere, if_neg fun h => hHere ((hTwinKey.eq_iff hKey).mpr h)]
        exact .none

end

/-! ## Files -/

theorem isBlank_of_isSpaces {ws : Text} (hws : IsSpaces ws) : ∀ c ∈ ws, Text.isBlank c = true := by
  intro c hc
  have hSpace := hws c hc
  simp only [List.mem_cons, List.not_mem_nil, or_false] at hSpace
  rcases hSpace with rfl | rfl | rfl | rfl <;> decide

/-- The blanks around a value are kept. -/
theorem becomes_blanks {d : Dialect} {t : Text} (ht : ∀ c ∈ t, Text.isBlank c = true) :
    Becomes d t t :=
  becomes_of_not_mem fun hMem => absurd (ht _ hMem) (by decide)


theorem isCompound_twin {v v' : Json} (h : Twin v v') : IsCompound v ↔ IsCompound v' := by
  cases h <;> rfl

/-- A value that starts with a bracket is an array or an object. -/
theorem isCompound_of_head {d : Dialect} {v : Json} {t : Text} (h : IsValue d v t)
    (hHead : t.head? = some '{' ∨ t.head? = some '[') : IsCompound v := by
  cases h with
  | scalar h =>
    have hBrace : '{' ∉ t := not_mem_scalar (by decide) h
    have hBracket : '[' ∉ t := not_mem_scalar (by decide) h
    rcases hHead with hHead | hHead
    · exact absurd (List.mem_of_mem_head? hHead) hBrace
    · exact absurd (List.mem_of_mem_head? hHead) hBracket
  | string _ => rcases hHead with hHead | hHead <;> cases hHead
  | noItems _ | items _ _ | noMembers _ | members _ _ => trivial

/-- What is read as a payload is, up to blanks, a value that starts with a bracket. -/
theorem isValue_of_ofText {v : Json} (h : Saved.ofText raw = .payload v) :
    IsValue .extended v (Text.strip raw) ∧ IsCompound v := by
  unfold Saved.ofText at h
  dsimp only at h
  split_ifs at h with _ hLooks
  have hHead := looksLikeJson_iff.mp hLooks
  split at h
  · next w hRead =>
    cases h
    obtain ⟨ws, t, ws', hws, hValue, hws', hText⟩ := read_eq_ok_iff.mp hRead
    have hNone : ws = [] := by
      cases ws with
      | nil => rfl
      | cons c ws =>
        -- the bracket would be white space
        have hSpace := hws c List.mem_cons_self
        rw [hText] at hHead
        rcases hHead with hHead | hHead <;> cases hHead <;> exact absurd hSpace (by decide)
    subst hNone
    rw [List.nil_append] at hText
    obtain ⟨c, u, hToken, -⟩ := Reader.startsToken_of_isValue hValue
    have hCompound : IsCompound v := by
      refine isCompound_of_head hValue ?_
      rw [hText, hToken] at hHead
      rwa [hToken]
    have hStrip : Text.strip ([] ++ (t ++ ws')) = t :=
      strip_isValue hCompound hValue nofun fun c hc => isBlank_of_isSpaces hws' c hc
    rw [List.nil_append, ← hText, Text.strip_strip] at hStrip
    rw [hStrip]
    exact ⟨hValue, hCompound⟩
  · cases h

/-- A payload is a payload in the other reading, too. -/
theorem ofText_respell {v : Json} (h : Saved.ofText raw = .payload v) :
    ∃ v', Twin v v' ∧ Saved.ofText (Saved.respell raw) = .payload v' := by
  obtain ⟨hValue, hCompound⟩ := isValue_of_ofText h
  obtain ⟨v', u, hTwin, hValue', hBecomes⟩ := exists_becomes hValue
  obtain ⟨lead, trail, hRaw, hLead, hTrail⟩ := Text.exists_strip raw
  have hCompound' := (isCompound_twin hTwin).mp hCompound
  have hRespell : Saved.respell raw = lead ++ (u ++ trail) := by
    have hWhole := (becomes_blanks hLead).append (hBecomes.append (becomes_blanks hTrail))
    rw [Saved.respell, h]
    dsimp only
    rw [← hWhole.respell, ← hRaw]
  have hStrip := strip_isValue hCompound' hValue' hLead hTrail
  refine ⟨v', hTwin, ?_⟩
  rw [hRespell]
  refine ofText_json ?_ ?_
  · rw [hStrip]
    exact (brackets_of_isValue hCompound' hValue').1
  · rw [hStrip]
    exact read_of_isValue hValue'

/-- A response that is markdown, or else proper JSON, has no half of a pair in it. -/
theorem respell_eq_self (h : ∀ v, read (Text.strip raw) = .ok v →
    IsDocument .proper v (Text.strip raw)) : Saved.respell raw = raw := by
  rw [Saved.respell]
  split
  · next v hPayload =>
    have hRead := read_of_isValue (isValue_of_ofText hPayload).1
    obtain ⟨v', u, -, -, hBecomes⟩ := exists_becomes_document (h v hRead)
    obtain ⟨lead, trail, hRaw, hLead, hTrail⟩ := Text.exists_strip raw
    have hWhole := (becomes_blanks (d := .proper) hLead).append
      (hBecomes.append (becomes_blanks hTrail))
    rw [hBecomes.eq_of_proper rfl, ← hRaw] at hWhole
    exact hWhole.respell
  · rfl

end Hover

/-! ## Descriptions -/

namespace Provider

open Hover Json

variable {language document raw : Text}

/-- Whatever is saved, it describes a type in both readings or in neither, and what it says are two
readings of the same. -/
theorem describe?_respelled (p : Provider) (document : Text) (context : Cursor.Context) :
    Option.Rel TwinText (p.describe? document context)
      (p.respelled.describe? document context) := by
  have hSame : ∀ o : Option Text, Option.Rel TwinText o o := by
    rintro (_ | t)
    · exact .none
    · exact .some (.refl t)
  cases p with
  | document _ | fixed _ => exact hSame _
  | hoverFile path content =>
    cases content with
    | error failure => exact .none
    | ok raw =>
      show Option.Rel TwinText (Saved.ofText raw).text?
        (Saved.ofText (Saved.respell raw)).text?
      cases hSaved : Saved.ofText raw with
      | payload v =>
        obtain ⟨v', hTwin, hOther⟩ := ofText_respell hSaved
        rw [hOther]
        exact text?_twin hTwin
      | blank | markdown _ | notJson _ _ =>
        have hKept : Saved.respell raw = raw := by rw [Saved.respell, hSaved]
        rw [hKept, hSaved]
        exact hSame _

/-- No struct that the provider describes shows half a pair: whatever stands in for one, the struct
is the same. -/
def IsWhole (p : Provider) (language document : Text) : Prop :=
  ∀ context, p.respelled.struct? language document context = p.struct? language document context

theorem isWhole_document (l : Text) : (Provider.document l).IsWhole language document :=
  fun _ => rfl

theorem isWhole_fixed (t : Option Text) : (fixed t).IsWhole language document := fun _ => rfl

/-- A hover file that holds markdown, or else proper JSON, is whole. -/
theorem isWhole_hoverFile (path : Path) (h : ∀ v, read (Text.strip raw) = .ok v →
    IsDocument .proper v (Text.strip raw)) :
    (hoverFile path (.ok raw)).IsWhole language document := by
  intro context
  rw [respelled, respell_eq_self h]

end Provider

end FieldHint
