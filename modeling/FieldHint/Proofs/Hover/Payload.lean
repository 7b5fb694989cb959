import FieldHint.Hover.Payload
import FieldHint.Proofs.Json.Member

/-!
# Hover payloads — the first text that is not blank

A payload holds texts in reading order (`candidates`), and the reader picks the first that is not
blank. It looks for blanks in strings, in marked values and between the items of a list, and all of
that comes to the same:

* `text?_eq_find?` — the text of a payload is its first candidate that is not blank, so lists may
  be joined and payloads wrapped;
* `text?_rearranged` — the order of members is no matter.

On the way, `text?_array` and `text?_object` state what is read of a list and of an object.
-/

namespace FieldHint.Hover

open Json

variable {h w : Json} {members members' : List (Text × Json)} {items : List Json} {t : Text}

/-! ## Lists and objects -/

theorem firstText?_eq (items : List Json) : firstText? items = items.findSome? text? := by
  induction items with
  | nil => rw [firstText?, List.findSome?_nil]
  | cons item items ih =>
    rw [firstText?, List.findSome?_cons, ih]
    cases text? item <;> rfl

theorem text?_array (items : List Json) : text? (.array items) = items.findSome? text? := by
  rw [text?, firstText?_eq]

theorem memberText?_eq (key : Text) (members : List (Text × Json)) :
    memberText? key members = (member? members key).map text? := by
  induction members with
  | nil => rw [memberText?]; rfl
  | cons entry members ih =>
    obtain ⟨k, item⟩ := entry
    rw [memberText?, ih, member?_cons]
    cases member? members key with
    | some _ => rfl
    | none => by_cases hKey : k = key <;> simp [hKey]

/-- A response is read through its result, then through its contents. -/
theorem text?_object (members : List (Text × Json)) :
    text? (.object members) =
      match member? members resultKey with
      | some item => text? item
      | none =>
        match member? members contentsKey with
        | some item => text? item
        | none => marked? members := by
  rw [text?, memberText?_eq, memberText?_eq]
  cases member? members resultKey with
  | some _ => rfl
  | none => cases member? members contentsKey <;> rfl

/-! ## Candidates -/

/-- A value as it is shown. If it has a language, it stands between two lines of three backticks,
and the language behind the first three. -/
def shown (language : Option Text) (value : Text) : Text :=
  match language with
  | some language =>
    if language = [] then value
    else ['\x60', '\x60', '\x60'] ++ language ++ ['\n'] ++ value ++ ['\n'] ++
      ['\x60', '\x60', '\x60']
  | none => value

/-- The text of a marked value, unless the value is blank. -/
def markedTexts (members : List (Text × Json)) : List Text :=
  match (member? members valueKey).bind asString? with
  | some value =>
    if Text.isBlankText value then []
    else [shown ((member? members languageKey).bind asString?) value]
  | none => []

/-- The texts that a payload holds, in reading order. Of an object, only the result is read, or the
contents if there is no result, or else the marked value. -/
def candidates : Json → List Text
  | .string t => [t]
  | .array items => items.flatMap candidates
  | .object members =>
    match _h : member? members resultKey with
    | some item => candidates item
    | none =>
      match _h : member? members contentsKey with
      | some item => candidates item
      | none => markedTexts members
  | _ => []
termination_by h => sizeOf h
decreasing_by
  · have hItem := List.sizeOf_lt_of_mem ‹_›
    rw [array.sizeOf_spec]
    omega
  · exact sizeOf_member? ‹_›
  · exact sizeOf_member? ‹_›

theorem candidates_object (members : List (Text × Json)) :
    candidates (.object members) =
      match member? members resultKey with
      | some item => candidates item
      | none =>
        match member? members contentsKey with
        | some item => candidates item
        | none => markedTexts members := by
  rw [candidates]
  cases member? members resultKey with
  | some _ => rfl
  | none => cases member? members contentsKey <;> rfl

/-- The text holds a character that is no blank. -/
def IsVisible (t : Text) : Prop := ∃ c ∈ t, Text.isBlank c = false

theorem isBlankText_eq_true_iff : Text.isBlankText t = true ↔ ¬ IsVisible t := by
  simp [Text.isBlankText, IsVisible]

instance (t : Text) : Decidable (IsVisible t) :=
  decidable_of_iff (¬ Text.isBlankText t = true) (by rw [isBlankText_eq_true_iff, not_not])

theorem nonblank?_eq (t : Text) : nonblank? t = [t].find? (IsVisible ·) := by
  rw [nonblank?, List.find?_singleton]
  by_cases hVisible : IsVisible t <;> simp [isBlankText_eq_true_iff, hVisible]

/-- A block shows its fences, whatever it holds. -/
theorem isVisible_shown (language : Option Text) (h : IsVisible t) :
    IsVisible (shown language t) := by
  unfold shown
  split
  · split
    · exact h
    · exact ⟨'\x60', by simp, by decide⟩
  · exact h

theorem marked?_eq_shown (members : List (Text × Json)) :
    marked? members = (((member? members valueKey).bind asString?).bind nonblank?).map
      (shown ((member? members languageKey).bind asString?)) := by
  rw [marked?]
  cases member? members valueKey with
  | none => rfl
  | some value =>
    cases value with
    | string value =>
      refine congrArg (Option.map · (nonblank? value)) (funext fun value => ?_)
      cases member? members languageKey with
      | none => rfl
      | some language => cases language <;> simp [shown, asString?, Fence.block, Fence.mark]
    | _ => rfl

theorem marked?_eq (members : List (Text × Json)) :
    marked? members = (markedTexts members).find? (IsVisible ·) := by
  rw [marked?_eq_shown, markedTexts]
  cases (member? members valueKey).bind asString? with
  | none => rfl
  | some value =>
    by_cases hVisible : IsVisible value
    · have hShown := isVisible_shown ((member? members languageKey).bind asString?) hVisible
      simp [nonblank?, isBlankText_eq_true_iff, hVisible, hShown]
    · simp [nonblank?, isBlankText_eq_true_iff, hVisible]

theorem text?_eq_find?_candidates (h : Json) : text? h = (candidates h).find? (IsVisible ·) := by
  induction h using candidates.induct with
  | case1 t => rw [text?, candidates, nonblank?_eq]
  | case2 items ih =>
    rw [text?_array, candidates, List.find?_flatMap]
    calc items.findSome? text?
      _ = (items.map text?).findSome? id := by rw [List.findSome?_map, Function.id_comp]
      _ = (items.map fun item => (candidates item).find? (IsVisible ·)).findSome? id := by
        rw [List.map_congr_left ih]
      _ = _ := by rw [List.findSome?_map, Function.id_comp]
  -- an object: its result, its contents, its marked value
  | case3 members item hResult ih =>
    rw [text?_object, candidates_object, hResult]
    exact ih
  | case4 members hResult item hContents ih =>
    rw [text?_object, candidates_object, hResult, hContents]
    exact ih
  | case5 members hResult hContents =>
    rw [text?_object, candidates_object, hResult, hContents]
    exact marked?_eq members
  | case6 h hString hArray hObject =>
    -- no other value holds a text
    cases h with
    | string t => exact absurd rfl (hString t)
    | array items => exact absurd rfl (hArray items)
    | object members => exact absurd rfl (hObject members)
    | _ => simp [text?, candidates]

/-! ## Lists that are joined, payloads that are wrapped -/

theorem text?_append (items more : List Json) :
    text? (.array (items ++ more)) = (text? (.array items)).or (text? (.array more)) := by
  rw [text?_array, text?_array, text?_array, List.findSome?_append]

/-- The payload stands in a tower of lists of one, of responses and of contents. -/
inductive Wraps (h : Json) : Json → Prop
  | self : Wraps h h
  | item {w : Json} : Wraps h w → Wraps h (.array [w])
  | result {members : List (Text × Json)} {w : Json} :
    member? members resultKey = some w → Wraps h w → Wraps h (.object members)
  | contents {members : List (Text × Json)} {w : Json} :
    member? members resultKey = none → member? members contentsKey = some w → Wraps h w →
      Wraps h (.object members)

theorem Wraps.text?_eq (hWraps : Wraps h w) : text? w = text? h := by
  induction hWraps with
  | self => rfl
  | item _ ih =>
    rw [text?_array, List.findSome?_singleton]
    exact ih
  | result hResult _ ih =>
    rw [text?_object, hResult]
    exact ih
  | contents hResult hContents _ ih =>
    rw [text?_object, hResult, hContents]
    exact ih

/-- The text of a payload is the first of its candidates that is not blank. So a list that is
joined to another has the text of the first, or else that of the second, and wrapping a payload
changes nothing. -/
theorem text?_eq_find? (h : Json) :
    text? h = (candidates h).find? (IsVisible ·) ∧
      (∀ items more : List Json,
        text? (.array (items ++ more)) = (text? (.array items)).or (text? (.array more))) ∧
      ∀ w, Wraps h w → text? w = text? h :=
  ⟨text?_eq_find?_candidates h, text?_append, fun _ hWraps => hWraps.text?_eq⟩

/-- The theorem at a response whose contents are a list in a list: blank, then code of a
language. -/
theorem text?_eq_find?_response :
    text? (.object
      [(resultKey, .object [(contentsKey, .array [.array
        [.string [' '], .object [(valueKey, .string ['x']), (languageKey, .string ['g'])]]])])]) =
      some ['\x60', '\x60', '\x60', 'g', '\n', 'x', '\n', '\x60', '\x60', '\x60'] := by
  have hWraps : Wraps
      (.array [.string [' '], .object [(valueKey, .string ['x']), (languageKey, .string ['g'])]])
      (.object
        [(resultKey, .object [(contentsKey, .array [.array
          [.string [' '], .object [(valueKey, .string ['x']), (languageKey, .string ['g'])]]])])]) :=
    .result rfl (.contents rfl rfl (.item .self))
  have hMarked : candidates
      (.object [(valueKey, .string ['x']), (languageKey, .string ['g'])]) =
      [['\x60', '\x60', '\x60', 'g', '\n', 'x', '\n', '\x60', '\x60', '\x60']] := by
    rw [candidates_object]
    rfl
  rw [(text?_eq_find? _).2.2 _ hWraps, (text?_eq_find? _).1, candidates, List.flatMap_cons,
    List.flatMap_singleton, hMarked, candidates]
  decide

/-! ## The order of members -/

/-- Nothing is read of an object but the texts of its members, and the members that are strings. -/
theorem text?_object_congr
    (hText : ∀ key, (member? members key).map text? = (member? members' key).map text?)
    (hString : ∀ key, (member? members key).map asString? = (member? members' key).map asString?) :
    text? (.object members) = text? (.object members') := by
  have hBind : ∀ o : Option Json, o.bind asString? = (o.map asString?).bind id := by
    intro o
    cases o <;> rfl
  rw [text?, text?, marked?_eq_shown, marked?_eq_shown]
  simp only [memberText?_eq, hBind, hText, hString]

/-- Values that may stand for each other in a payload: they have the same text, and if one of them
is a string, then the other is that string. -/
structure Alike (v w : Json) : Prop where
  text : text? v = text? w
  string : asString? v = asString? w

theorem alike_of_rearranged {v w : Json} (h : Rearranged v w) : Alike v w := by
  induction h with
  | refl v => exact ⟨rfl, rfl⟩
  | trans _ _ ih ih' => exact ⟨ih.text.trans ih'.text, ih.string.trans ih'.string⟩
  | members hKeys hPerm =>
    have hMember := member?_perm hKeys hPerm
    exact ⟨text?_object_congr (fun key => by rw [hMember]) fun key => by rw [hMember], rfl⟩
  | item before after _ ih =>
    refine ⟨?_, rfl⟩
    rw [text?_array, text?_array, List.findSome?_append, List.findSome?_append,
      List.findSome?_cons, List.findSome?_cons, ih.text]
  | member before after key _ ih =>
    exact ⟨text?_object_congr (member?_replace ih.text before after key)
      (member?_replace ih.string before after key), rfl⟩

/-- The order in which objects list their members is no matter to the text of a payload. -/
theorem text?_rearranged {v w : Json} (h : Rearranged v w) : text? v = text? w :=
  (alike_of_rearranged h).text

end FieldHint.Hover
