import FieldHint.Help.Provider
import FieldHint.Proofs.Hover.Payload
import FieldHint.Proofs.Json.Lines
import FieldHint.Proofs.Text.Cut

/-!
# Hover — saved responses

`describe?_hoverFile`: a file that holds a payload as JSON describes a type by the text of that
payload, however the JSON is written, and a file that is no JSON by the whole of its text.

Reading a file touches its line breaks, and dispatching on its text drops the blanks around it, so
neither may touch the value that it holds: line breaks stand between tokens only, and an array or
object has brackets at its ends.
-/

namespace FieldHint

namespace Json

variable {d : Dialect} {v w : Json} {t : Text}

/-- An array or an object. -/
def IsCompound : Json → Prop
  | array _ | object _ => True
  | _ => False

/-- The text is JSON for the value. How it is written is free: the white space between tokens, the
escapes, and the order of members with distinct keys. -/
def IsEncoding (v : Json) (t : Text) : Prop := ∃ w, Rearranged v w ∧ IsValue .proper w t

theorem isCompound_of_rearranged (h : Rearranged v w) : IsCompound v ↔ IsCompound w := by
  induction h with
  | refl _ => rfl
  | trans _ _ ih ih' => exact ih.trans ih'
  | members _ _ | item _ _ _ _ | member _ _ _ _ _ => rfl

/-! ## Brackets -/

theorem getLast?_isItems {vs : List Json} {t : Text} (h : IsItems d vs t) :
    t.getLast? = some ']' := by
  cases h with
  | last _ _ =>
    rw [← List.append_assoc, List.getLast?_append, List.getLast?_singleton, Option.some_or]
  | more _ _ _ hItems =>
    have hLast := getLast?_isItems hItems
    simp [List.getLast?_append, List.getLast?_cons, hLast]

theorem getLast?_isMembers {ms : List (Text × Json)} {t : Text} (h : IsMembers d ms t) :
    t.getLast? = some '}' := by
  cases h with
  | last _ _ =>
    rw [← List.append_assoc, List.getLast?_append, List.getLast?_singleton, Option.some_or]
  | more _ _ _ hMembers =>
    have hLast := getLast?_isMembers hMembers
    simp [List.getLast?_append, List.getLast?_cons, hLast]

/-- What stands for an array or an object starts and ends with a bracket. -/
theorem brackets_of_isValue (hCompound : IsCompound v) (h : IsValue d v t) :
    (t.head? = some '{' ∨ t.head? = some '[') ∧
      (t.getLast? = some '}' ∨ t.getLast? = some ']') := by
  cases h with
  | scalar h => cases h <;> cases hCompound
  | string _ => cases hCompound
  | noItems _ => exact ⟨Or.inr rfl, Or.inr (by simp [List.getLast?_cons, List.getLast?_append])⟩
  | items _ hItems =>
    have hLast := getLast?_isItems hItems
    exact ⟨Or.inr rfl, Or.inr (by simp [List.getLast?_cons, List.getLast?_append, hLast])⟩
  | noMembers _ => exact ⟨Or.inl rfl, Or.inl (by simp [List.getLast?_cons, List.getLast?_append])⟩
  | members _ hMembers =>
    have hLast := getLast?_isMembers hMembers
    exact ⟨Or.inl rfl, Or.inl (by simp [List.getLast?_cons, List.getLast?_append, hLast])⟩

end Json

namespace Hover

variable {d : Json.Dialect} {v : Json} {raw t lead trail : Text}

/-! ## The text of a file -/

/-- The blanks around an array or object are dropped, and nothing else is. -/
theorem strip_isValue (hCompound : v.IsCompound) (h : Json.IsValue d v t)
    (hLead : ∀ c ∈ lead, Text.isBlank c = true) (hTrail : ∀ c ∈ trail, Text.isBlank c = true) :
    Text.strip (lead ++ (t ++ trail)) = t := by
  obtain ⟨hHead, hLast⟩ := Json.brackets_of_isValue hCompound h
  rw [Text.strip_blank_append hLead, Text.strip_append_blank hTrail, Text.strip_eq_self_iff]
  constructor
  · intro c hc
    rcases hHead with hHead | hHead <;> rw [hHead] at hc <;> cases hc <;> decide
  · intro c hc
    rcases hLast with hLast | hLast <;> rw [hLast] at hc <;> cases hc <;> decide

/-- Reading the text of a file leaves a value with blanks around it a text of that value with blanks
around it. -/
theorem exists_unixLines_padded (h : Json.IsValue d v t)
    (hLead : ∀ c ∈ lead, Text.isBlank c = true) (hTrail : ∀ c ∈ trail, Text.isBlank c = true) :
    ∃ e lead' trail', Json.IsValue d v e ∧ (∀ c ∈ lead', Text.isBlank c = true) ∧
      (∀ c ∈ trail', Text.isBlank c = true) ∧
        Text.unixLines (lead ++ (t ++ trail)) = lead' ++ (e ++ trail') := by
  have hBlank : ∀ {u : Text}, (∀ c ∈ u, Text.isBlank c = true) →
      ∀ c ∈ Text.unixLines u, Text.isBlank c = true := by
    intro u hu c hc
    rcases Text.mem_unixLines hc with hc | rfl
    · exact hu c hc
    · decide
  obtain ⟨e, hIsValue, hUnix⟩ := Json.exists_unixLines h trail
  refine ⟨e, _, _, hIsValue, hBlank hLead, hBlank hTrail, ?_⟩
  rw [Json.unixLines_before (Json.Reader.startsToken_of_isValue h), hUnix]

theorem looksLikeJson_iff :
    Saved.looksLikeJson t = true ↔ t.head? = some '{' ∨ t.head? = some '[' := by
  simp [Saved.looksLikeJson]

/-- What can be read and starts with a bracket is a payload. -/
theorem ofText_json (hHead : (Text.strip raw).head? = some '{' ∨
    (Text.strip raw).head? = some '[') (hRead : Json.read (Text.strip raw) = .ok v) :
    Saved.ofText raw = .payload v := by
  have hne : (Text.strip raw).isEmpty = false := by
    rw [← Bool.not_eq_true, List.isEmpty_iff]
    intro hEmpty
    simp [hEmpty] at hHead
  simp only [Saved.ofText, hne, looksLikeJson_iff.mpr hHead, hRead, if_true]
  rfl

/-- A text that is no JSON says what it is. -/
theorem text?_ofText_other (hVisible : IsVisible raw)
    (hNot : (Text.strip raw).head? ≠ some '{' ∧ (Text.strip raw).head? ≠ some '[' ∨
      ∀ v, Json.read (Text.strip raw) ≠ .ok v) :
    (Saved.ofText raw).text? = some raw := by
  have hne : (Text.strip raw).isEmpty = false := by
    rw [← Bool.not_eq_true, List.isEmpty_iff]
    intro hEmpty
    obtain ⟨c, hc, hSolid⟩ := hVisible
    rw [Text.isBlank_of_strip_eq_nil hEmpty c hc] at hSolid
    cases hSolid
  cases hLooks : Saved.looksLikeJson (Text.strip raw) with
  | false =>
    simp only [Saved.ofText, hne, hLooks]
    rfl
  | true =>
    rw [← not_or] at hNot
    have hFails := hNot.resolve_left (not_not_intro (looksLikeJson_iff.mp hLooks))
    cases hRead : Json.read (Text.strip raw) with
    | ok v => exact absurd hRead (hFails v)
    | error e =>
      simp only [Saved.ofText, hne, hLooks, hRead, if_true]
      rfl

theorem text?_ofText_encoding (hCompound : v.IsCompound) (h : v.IsEncoding t)
    (hLead : ∀ c ∈ lead, Text.isBlank c = true) (hTrail : ∀ c ∈ trail, Text.isBlank c = true) :
    (Saved.ofText (Text.unixLines (lead ++ (t ++ trail)))).text? = text? v := by
  obtain ⟨w, hRearranged, hValue⟩ := h
  rw [Json.isCompound_of_rearranged hRearranged] at hCompound
  obtain ⟨e, lead', trail', hIsValue, hLead', hTrail', hUnix⟩ :=
    exists_unixLines_padded hValue hLead hTrail
  have hStrip := strip_isValue hCompound hIsValue hLead' hTrail'
  have hRead : Json.read e = .ok w := Json.read_of_isValue hIsValue
  have hPayload : Saved.ofText (lead' ++ (e ++ trail')) = .payload w := by
    refine ofText_json ?_ (hStrip.symm ▸ hRead)
    rw [hStrip]
    exact (Json.brackets_of_isValue hCompound hIsValue).1
  rw [hUnix, text?_rearranged hRearranged, hPayload]
  rfl

end Hover

/-! ## The description of a file -/

namespace Provider

open Hover

/-- A file with a payload as JSON, in whatever way it is written and with any blanks around it,
describes a type by the text of that payload. A file that is not blank and no JSON, be it that it
starts otherwise than an array or object or that it cannot be read, describes it by its own text,
in which line breaks are line feeds. -/
theorem describe?_hoverFile (disk : Disk) (path : Path) (document : Text)
    (context : Cursor.Context) :
    (∀ (h : Json) (e lead trail : Text), h.IsCompound → h.IsEncoding e →
      (∀ c ∈ lead, Text.isBlank c = true) → (∀ c ∈ trail, Text.isBlank c = true) →
        disk path = .ok (Text.utf8 (lead ++ (e ++ trail))) →
          (hoverFile path (disk.read path)).describe? document context = text? h) ∧
    (∀ raw : Text, disk.read path = .ok raw → IsVisible raw →
      ((Text.strip raw).head? ≠ some '{' ∧ (Text.strip raw).head? ≠ some '[' ∨
        ¬ ∃ v, Json.IsDocument .extended v (Text.strip raw)) →
          (hoverFile path (disk.read path)).describe? document context = some raw) ∧
    ∀ t : Text, disk path = .ok (Text.utf8 t) → disk.read path = .ok (Text.unixLines t) := by
  have hBytes : ∀ t : Text, disk path = .ok (Text.utf8 t) →
      disk.read path = .ok (Text.unixLines t) := by
    intro t hDisk
    rw [Disk.read, hDisk, Except.bind, Text.ofBytes, Text.Utf8.decode_utf8]
  refine ⟨?_, ?_, hBytes⟩
  · intro h e lead trail hCompound hEncoding hLead hTrail hDisk
    rw [hBytes _ hDisk]
    exact text?_ofText_encoding hCompound hEncoding hLead hTrail
  · intro raw hRead hVisible hNot
    rw [hRead]
    refine text?_ofText_other hVisible (hNot.imp_right fun hNone v hv => ?_)
    exact hNone ⟨v, Json.read_eq_ok_iff.mp hv⟩

/-- A response over two lines, with an escaped letter in a key and a character as a pair of escapes:
its contents and the number of the request that it answers. -/
def escapedResponse : Text :=
  ['{', '"', 'i', '"', ':', '7', ',', '\r', '\n', '"', 'c', '\\', 'u', '0', '0', '6', 'F', 'n', 't',
    'e', 'n', 't', 's', '"', ':', ' ', '"', '\\', 'u', 'd', '8', '3', 'D', '\\', 'u', 'd', 'e', '0',
    '0', '"', '}']

theorem isEncoding_escapedResponse :
    (Json.object [(contentsKey, .string ['😀']), (['i'], .int 7)]).IsEncoding escapedResponse := by
  have hRaw : ∀ s : Text, (∀ c ∈ s, c ≠ '"' ∧ c ≠ '\\' ∧ 0x20 ≤ c.toNat) →
      Json.Spells .proper s s := by
    intro s
    induction s with
    | nil => exact fun _ => .nil
    | cons c s ih =>
      intro h
      obtain ⟨⟨hQuote, hBackslash, hControl⟩, hRest⟩ := List.forall_mem_cons.mp h
      exact .char (e := [c]) (.raw hQuote hBackslash hControl) (ih hRest)
  have hKey : Json.Spells .proper contentsKey
      ['c', '\\', 'u', '0', '0', '6', 'F', 'n', 't', 'e', 'n', 't', 's'] :=
    .char (e := ['c']) (.raw (by decide) (by decide) (by decide))
      (.char (e := ['\\', 'u', '0', '0', '6', 'F']) (.unit ⟨by decide, by decide⟩)
        (hRaw ['n', 't', 'e', 'n', 't', 's'] (by simp)))
  have hPair := @Json.Writes.pair '😀' ['d', '8', '3', 'D'] ['d', 'e', '0', '0'] (by decide)
    ⟨by decide, by decide⟩ ⟨by decide, by decide⟩
  have hSeven : Json.IsWhole ['7'] := ⟨⟨by simp, List.forall_mem_singleton.mpr rfl⟩, by simp⟩
  have hNumber : Json.IsValue .proper (.int 7) ['7'] :=
    .scalar (.integer .plus hSeven (by decide))
  have hNone : Json.IsSpaces [] := nofun
  have hSpace : Json.IsSpaces [' '] := by decide
  have hBreak : Json.IsSpaces ['\r', '\n'] := by decide
  have hId : Json.IsMember .proper (['i'], .int 7) ['"', 'i', '"', ':', '7'] :=
    .member (hRaw ['i'] (by simp)) hNone hNone hNumber
  have hContents := Json.IsMember.member hKey hNone hSpace (.string (.char hPair .nil))
  exact ⟨.object [(['i'], .int 7), (contentsKey, .string ['😀'])],
    .members (by decide) (List.Perm.swap _ _ _),
    .members hNone (.more hId hNone hBreak (.last hContents hNone))⟩

/-- A disk on which every file holds the text. -/
def diskOf (t : Text) : Disk := fun _ => .ok (Text.utf8 t)

/-- The theorem at that response, with a no-break space before it and a line break behind it, and at
a text that starts with a link. -/
theorem describe?_hoverFile_response :
    (hoverFile ⟨[], []⟩ ((diskOf (['\u00a0'] ++ (escapedResponse ++ ['\r', '\n']))).read
      ⟨[], []⟩)).describe? [] ⟨[], 0, 0⟩ = some ['😀'] ∧
    (hoverFile ⟨[], []⟩ ((diskOf ['[', 'x', ']', '(', 'y', ')', '\r']).read
      ⟨[], []⟩)).describe? [] ⟨[], 0, 0⟩ = some ['[', 'x', ']', '(', 'y', ')', '\n'] := by
  refine ⟨?_, ?_⟩
  · have hBlank : ∀ c ∈ ['\r', '\n'], Text.isBlank c = true :=
      List.forall_mem_cons.mpr ⟨by decide, List.forall_mem_singleton.mpr (by decide)⟩
    rw [(describe?_hoverFile _ _ _ _).1 _ escapedResponse ['\u00a0'] ['\r', '\n'] (by trivial)
      isEncoding_escapedResponse (List.forall_mem_singleton.mpr (by decide)) hBlank rfl]
    rfl
  · have hFile := describe?_hoverFile (diskOf ['[', 'x', ']', '(', 'y', ')', '\r']) ⟨[], []⟩ []
      ⟨[], 0, 0⟩
    refine hFile.2.1 _ (hFile.2.2 _ rfl) (by decide) (Or.inr ?_)
    rintro ⟨v, hDocument⟩
    have hRead := Json.read_of_isDocument hDocument
    cases hRead

end Provider

end FieldHint
