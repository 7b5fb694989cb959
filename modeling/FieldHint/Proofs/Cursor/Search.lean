import FieldHint.Proofs.Cursor.Stack

/-!
# Cursor — the search for the type name

The name of a literal's type may be written with a qualifier, `pkg.Name`, and stands right in front
of the brace. One way to find it is to search the text before the brace for the leftmost place
from where a name, or a qualifier, a dot and a name, reach to the end. The library does not search:
it takes the identifier characters at the end and cuts them before the first character that a type
name can start with. On every text, `camelCase`, `A.B.C`, `9Foo` and a trailing dot among them, the
two agree:

* `typeName?_eq_some_iff` / `typeName?_eq_none_iff` — what the cut finds, and when it finds nothing;
* `search?_eq` — the search finds the same;
* `context?_characterization` — the context of a cursor by the stack of open braces before it and
  the identifier in front of the topmost one, or by the search.
-/

namespace FieldHint.Cursor

variable {t s name text : Text} {start : Nat}

/-! ## The identifier at the end of a text -/

/-- The longest run of identifier characters at the end of a text. -/
def identifierAtEnd (t : Text) : Text := t.rtakeWhile isIdentifierChar

/-- The identifier at the end of `t`, from its first capital letter or underscore on, is `name`, and
it stands at `start`. -/
structure EndsInName (t name : Text) (start : Nat) : Prop where
  run : ∃ lower, identifierAtEnd t = lower ++ name ∧ ∀ c ∈ lower, isTypeInitial c = false
  initial : ∃ c ∈ name.head?, isTypeInitial c = true
  start : start + name.length = t.length

theorem identifierAtEnd_isSuffix (t : Text) : identifierAtEnd t <:+ t :=
  List.rtakeWhile_suffix isIdentifierChar t

theorem isIdentifierChar_of_mem {c : Char} (hc : c ∈ identifierAtEnd t) :
    isIdentifierChar c = true :=
  List.mem_rtakeWhile_imp hc

/-- No longer run ends there. -/
theorem suffix_identifierAtEnd (hs : s <:+ t) (hChars : ∀ c ∈ s, isIdentifierChar c = true) :
    s <:+ identifierAtEnd t := by
  obtain ⟨front, rfl⟩ := hs
  unfold identifierAtEnd List.rtakeWhile
  rw [List.reverse_append, List.takeWhile_append_of_pos (by simpa using hChars),
    List.reverse_append, List.reverse_reverse]
  exact List.suffix_append _ _

theorem EndsInName.isSuffix (h : EndsInName t name start) : name <:+ identifierAtEnd t := by
  obtain ⟨lower, hRun, -⟩ := h.run
  rw [hRun]
  exact List.suffix_append lower name

theorem EndsInName.isTypeName (h : EndsInName t name start) : IsTypeName name :=
  ⟨h.initial, fun _ hc => isIdentifierChar_of_mem (h.isSuffix.subset hc)⟩

/-- The way back in terms of the text as it is read forwards. -/
theorem typeName?_reverse (t : Text) :
    typeName? t.reverse =
      let name := (identifierAtEnd (Text.stripEnd t)).dropWhile fun c => !isTypeInitial c
      if name.isEmpty then none else some (name, (Text.stripEnd t).length - name.length) := by
  have hRest : t.reverse.dropWhile Text.isBlank = (Text.stripEnd t).reverse := by
    unfold Text.stripEnd Text.dropWhileEnd
    rw [List.reverse_reverse]
  unfold typeName? identifierAtEnd List.rtakeWhile
  simp only [hRest, List.length_reverse]

theorem typeName?_eq_none_iff : typeName? t.reverse = none ↔
    ∀ c ∈ identifierAtEnd (Text.stripEnd t), isTypeInitial c = false := by
  rw [typeName?_reverse]
  simp

theorem typeName?_eq_some_iff :
    typeName? t.reverse = some (name, start) ↔ EndsInName (Text.stripEnd t) name start := by
  rw [typeName?_reverse]
  constructor
  · intro h
    obtain ⟨lower, rest, hRun, hLower, hRest⟩ :=
      Text.exists_run (fun c => !isTypeInitial c) (identifierAtEnd (Text.stripEnd t))
    -- the cut leaves the rest of the identifier, and that is not empty
    have hDrop := Text.dropWhile_run hLower hRest
    rw [← hRun] at hDrop
    simp only [hDrop, Option.ite_none_left_eq_some, Option.some.injEq, Prod.mk.injEq,
      List.isEmpty_iff] at h
    obtain ⟨hNe, rfl, hStart⟩ := h
    have hLength : rest.length ≤ (Text.stripEnd t).length := by
      refine List.IsSuffix.length_le (List.IsSuffix.trans ?_ (identifierAtEnd_isSuffix _))
      exact hRun ▸ List.suffix_append lower rest
    refine ⟨⟨lower, hRun, by simpa using hLower⟩, ?_, by omega⟩
    obtain ⟨c, rest, rfl⟩ := List.exists_cons_of_ne_nil hNe
    exact ⟨c, rfl, by simpa using hRest c rfl⟩
  · intro h
    obtain ⟨lower, hRun, hLower⟩ := h.run
    obtain ⟨c, hc, hInitial⟩ := h.initial
    -- the cut takes away what is before the name, and stops at its first character
    have hDrop : (lower ++ name).dropWhile (fun c => !isTypeInitial c) = name := by
      refine Text.dropWhile_run (by simpa using hLower) fun d hd => ?_
      rw [Option.mem_unique hd hc, hInitial]
      rfl
    have hStart := h.start
    simp only [hRun, hDrop, List.isEmpty_iff, h.isTypeName.ne_nil, if_false, Option.some.injEq,
      Prod.mk.injEq, true_and]
    omega

/-! ## The search -/

instance : DecidablePred IsTypeName := fun t =>
  decidable_of_iff ((∃ c ∈ t.head?, isTypeInitial c = true) ∧ ∀ c ∈ t, isIdentifierChar c = true)
    ⟨fun h => ⟨h.1, h.2⟩, fun h => ⟨h.initial, h.chars⟩⟩

/-- The name, if the whole text is a type name, with or without a qualifier. -/
def qualifiedName? (t : Text) : Option Text :=
  let qualifier := t.takeWhile (· ≠ '.')
  let name := (t.dropWhile (· ≠ '.')).drop 1
  if IsTypeName t then some t
  else if IsTypeName qualifier ∧ IsTypeName name then some name
  else none

/-- The leftmost place from where a type name, with or without a qualifier, reaches to the end: the
name and its offset. -/
def search? (t : Text) : Option (Text × Nat) :=
  t.tails.findSome? fun s => (qualifiedName? s).map fun name => (name, t.length - name.length)

theorem not_isIdentifierChar_dot : isIdentifierChar '.' = false := by decide

theorem not_mem_dot_of_isTypeName (h : IsTypeName t) : '.' ∉ t :=
  Text.not_mem_of_class h.chars not_isIdentifierChar_dot

/-- A type name, or a qualifier, a dot and a type name. -/
theorem qualifiedName?_eq_some_iff : qualifiedName? t = some name ↔
    IsTypeName name ∧
      (t = name ∨ ∃ qualifier, IsTypeName qualifier ∧ t = qualifier ++ '.' :: name) := by
  unfold qualifiedName?
  constructor
  · intro h
    by_cases hWhole : IsTypeName t
    · simp only [hWhole, if_true, Option.some.injEq] at h
      exact ⟨h ▸ hWhole, Or.inl h⟩
    · simp only [hWhole, if_false, Option.ite_none_right_eq_some, Option.some.injEq] at h
      obtain ⟨⟨hQualifier, hName⟩, rfl⟩ := h
      refine ⟨hName, Or.inr ⟨_, hQualifier, ?_⟩⟩
      -- the qualifier ends at a dot, since something follows it
      cases hRest : t.dropWhile (· ≠ '.') with
      | nil => exact absurd (by rw [hRest, List.drop_nil]) hName.ne_nil
      | cons c rest =>
        have hDot : c = '.' := by
          have := List.head?_dropWhile_not (· ≠ '.') t
          rw [hRest] at this
          simpa using this
        conv_lhs => rw [← List.takeWhile_append_dropWhile (p := (· ≠ '.')) (l := t), hRest, hDot]
        rfl
  · rintro ⟨hName, rfl | ⟨qualifier, hQualifier, rfl⟩⟩
    · simp only [hName, if_true]
    · have hWhole : ¬ IsTypeName (qualifier ++ '.' :: name) :=
        fun h => not_mem_dot_of_isTypeName h (by simp)
      have hRun := Text.forall_ne_of_not_mem (not_mem_dot_of_isTypeName hQualifier)
      have hTake : (qualifier ++ '.' :: name).takeWhile (· ≠ '.') = qualifier :=
        Text.takeWhile_run hRun (by simp)
      have hDrop : (qualifier ++ '.' :: name).dropWhile (· ≠ '.') = '.' :: name :=
        Text.dropWhile_run hRun (by simp)
      simp only [hWhole, hTake, hDrop, List.drop_succ_cons, List.drop_zero, hQualifier, hName,
        and_self, if_true, if_false]

/-- Where a name with or without a qualifier reaches to the end, the name is a tail of the
identifier there; with a qualifier it is all of it. -/
theorem suffix_of_qualifiedName? (hs : s <:+ t) (h : qualifiedName? s = some name) :
    name <:+ identifierAtEnd t ∧ (s = name ∨ name = identifierAtEnd t) := by
  obtain ⟨hName, rfl | ⟨qualifier, -, rfl⟩⟩ := qualifiedName?_eq_some_iff.mp h
  · exact ⟨suffix_identifierAtEnd hs hName.chars, Or.inl rfl⟩
  · have hDotted : '.' :: name <:+ t := (List.suffix_append qualifier _).trans hs
    have hSuffix : name <:+ identifierAtEnd t :=
      suffix_identifierAtEnd ((List.suffix_cons '.' name).trans hDotted) hName.chars
    refine ⟨hSuffix, Or.inr ?_⟩
    have hDot : '.' ∉ identifierAtEnd t := fun hMem => by
      have := isIdentifierChar_of_mem hMem
      rw [not_isIdentifierChar_dot] at this
      exact Bool.false_ne_true this
    -- the identifier ends behind the dot, or it would hold it
    rcases List.suffix_or_suffix_of_suffix hDotted (identifierAtEnd_isSuffix t) with hIn | hOut
    · exact absurd (hIn.subset (by simp)) hDot
    · rcases List.suffix_cons_iff.mp hOut with hEq | hOut
      · exact absurd (hEq ▸ List.mem_cons_self) hDot
      · exact hSuffix.eq_of_length_le hOut.length_le

/-- Where the search meets a name that is not shorter than the one at the end, it is that one. -/
theorem EndsInName.eq_of_qualifiedName? {found : Text} (h : EndsInName t name start) (hs : s <:+ t)
    (hLong : name.length ≤ s.length) (hFound : qualifiedName? s = some found) : found = name := by
  obtain ⟨lower, hRun, hLower⟩ := h.run
  have hInitial := (qualifiedName?_eq_some_iff.mp hFound).1.initial
  obtain ⟨hSuffix, hCases⟩ := suffix_of_qualifiedName? hs hFound
  have hLong' : name.length ≤ found.length := by
    rcases hCases with rfl | rfl
    · exact hLong
    · exact h.isSuffix.length_le
  -- more of the identifier than the name would start with one of the characters that are cut off
  obtain ⟨more, rfl⟩ := List.suffix_of_suffix_length_le h.isSuffix hSuffix hLong'
  rw [hRun] at hSuffix
  cases more with
  | nil => rfl
  | cons c more =>
    obtain ⟨d, hd, hInitial⟩ := hInitial
    obtain rfl : c = d := by simpa using hd
    have hMore : c :: more <:+ lower := List.suffix_append_self_iff.mp hSuffix
    rw [hLower c (hMore.subset List.mem_cons_self)] at hInitial
    exact absurd hInitial Bool.false_ne_true

/-- A search through all tails of a text finds what it finds at one of them, if no longer tail gives
anything else. -/
theorem findSome?_tails {α β : Type} {f : List α → Option β} {b : β} {front l : List α}
    (hFound : f l = some b)
    (hLonger : ∀ s, s <:+ front ++ l → l.length ≤ s.length → ∀ b', f s = some b' → b' = b) :
    (front ++ l).tails.findSome? f = some b := by
  induction front with
  | nil => cases l <;> simp [hFound]
  | cons c front ih =>
    have hRest := ih fun s hs => hLonger s (hs.trans (List.suffix_cons c _))
    have hWhole := hLonger (c :: (front ++ l)) List.suffix_rfl (by simp; omega)
    rw [List.cons_append, List.tails_cons, List.findSome?_cons]
    cases hHit : f (c :: (front ++ l)) with
    | none => exact hRest
    | some b' => rw [hWhole b' hHit]

theorem search?_of_endsInName (h : EndsInName t name start) : search? t = some (name, start) := by
  obtain ⟨front, rfl⟩ := h.isSuffix.trans (identifierAtEnd_isSuffix t)
  have hStart : (front ++ name).length - name.length = start := by
    have := h.start
    omega
  unfold search?
  refine findSome?_tails ?_ fun s hs hLong found hFound => ?_
  · rw [qualifiedName?_eq_some_iff.mpr ⟨h.isTypeName, Or.inl rfl⟩, Option.map_some, hStart]
  · obtain ⟨other, hOther, rfl⟩ := Option.map_eq_some_iff.mp hFound
    rw [h.eq_of_qualifiedName? hs hLong hOther, hStart]

theorem search?_eq_none (h : ∀ c ∈ identifierAtEnd t, isTypeInitial c = false) :
    search? t = none := by
  unfold search?
  rw [List.findSome?_eq_none_iff]
  intro s hs
  rw [Option.map_eq_none_iff, Option.eq_none_iff_forall_ne_some]
  intro name hName
  -- the first character of a name would stand in the identifier
  obtain ⟨c, hc, hInitial⟩ := (qualifiedName?_eq_some_iff.mp hName).1.initial
  have hSuffix := (suffix_of_qualifiedName? ((List.mem_tails s t).mp hs) hName).1
  rw [h c (hSuffix.subset (List.mem_of_head? hc))] at hInitial
  exact Bool.false_ne_true hInitial

/-- The search finds what the cut finds. -/
theorem search?_eq (t : Text) : search? (Text.stripEnd t) = typeName? t.reverse := by
  cases h : typeName? t.reverse with
  | none => exact search?_eq_none (typeName?_eq_none_iff.mp h)
  | some found => exact search?_of_endsInName (typeName?_eq_some_iff.mp h)

/-! ## The context -/

/-- The offset of a text that is nearest to an integer. -/
def nearestOffset (text : Text) (cursor : Int) : Nat := (max 0 (min cursor text.length)).toNat

theorem take_nearestOffset (text : Text) (cursor : Int) :
    text.take (nearestOffset text cursor) = text.take cursor.toNat := by
  unfold nearestOffset
  rw [List.take_eq_take_iff]
  omega

/-- The context of a cursor, by the innermost brace open there. -/
theorem context?_eq (text : Text) (cursor : Int) :
    context? text cursor =
      (openBraces (text.take (nearestOffset text cursor))).head?.bind fun b =>
        (typeName? (text.take b).reverse).map fun found =>
          ⟨found.1, found.2,
            countCommas (Text.slice text (b + 1) (nearestOffset text cursor))⟩ := by
  unfold context? Site.around Text.slice
  rw [← take_nearestOffset, atEnd_eq]
  cases hTop : (openBraces (text.take (nearestOffset text cursor))).head? with
  | none => rfl
  | some b =>
    -- the brace is before the cursor, so the name is looked for in the same text
    have hTake : (text.take (nearestOffset text cursor)).take b = text.take b := by
      have := take_of_mem_openBraces (List.mem_of_head? hTop)
        (text.drop (nearestOffset text cursor))
      rw [List.take_append_drop] at this
      exact this.symm
    simp only [hTake, Option.bind_some]
    cases typeName? (text.take b).reverse <;> rfl

/-- The context of a cursor. There is none if no brace is open before the cursor, or if the
identifier in front of the innermost open brace, blanks aside, holds neither a capital letter nor an
underscore. Otherwise the type name is that identifier from the first such character on, with its
offset, and the commas between the brace and the cursor are counted. Searching all of the text
before the brace for the name gives the same, and the text behind the cursor has no say. -/
theorem context?_characterization (text : Text) (cursor : Int) :
    (context? text cursor = none ↔
      openBraces (text.take (nearestOffset text cursor)) = [] ∨
      ∃ b ∈ (openBraces (text.take (nearestOffset text cursor))).head?,
        ∀ c ∈ identifierAtEnd (Text.stripEnd (text.take b)), isTypeInitial c = false) ∧
    (∀ found, context? text cursor = some found ↔
      ∃ b ∈ (openBraces (text.take (nearestOffset text cursor))).head?,
        EndsInName (Text.stripEnd (text.take b)) found.typeName found.typeNameOffset ∧
        found.activeField =
          countCommas (Text.slice text (b + 1) (nearestOffset text cursor))) ∧
    (context? text cursor =
      (openBraces (text.take (nearestOffset text cursor))).head?.bind fun b =>
        (search? (Text.stripEnd (text.take b))).map fun found =>
          ⟨found.1, found.2, countCommas (Text.slice text (b + 1) (nearestOffset text cursor))⟩) ∧
    ∀ behind, context? (text.take (nearestOffset text cursor) ++ behind)
      (nearestOffset text cursor) = context? text cursor := by
  refine ⟨?_, fun found => ?_, ?_, fun behind => ?_⟩
  · rw [context?_eq, Option.bind_eq_none_iff]
    simp only [Option.map_eq_none_iff, typeName?_eq_none_iff]
    -- the stack is empty, or its top decides
    cases hStack : openBraces (text.take (nearestOffset text cursor)) with
    | nil => simp
    | cons b stack => simp
  · rw [context?_eq, Option.bind_eq_some_iff]
    refine exists_congr fun b => and_congr Iff.rfl ?_
    obtain ⟨name, start, active⟩ := found
    rw [← typeName?_eq_some_iff, Option.map_eq_some_iff]
    constructor
    · rintro ⟨⟨name, start⟩, hName, hFound⟩
      simp only [Context.mk.injEq] at hFound
      obtain ⟨rfl, rfl, rfl⟩ := hFound
      exact ⟨hName, rfl⟩
    · rintro ⟨hName, rfl⟩
      exact ⟨(name, start), hName, rfl⟩
  · simp only [search?_eq]
    exact context?_eq text cursor
  · have hLength : (text.take (nearestOffset text cursor)).length = nearestOffset text cursor := by
      rw [List.length_take]
      unfold nearestOffset
      omega
    have hAppend := context?_append (text.take (nearestOffset text cursor)) behind
    rw [hLength] at hAppend
    rw [hAppend, context?, Site.around, take_nearestOffset]

end FieldHint.Cursor
