import FieldHint.Proofs.Text.Cut
import FieldHint.Struct.Header

/-!
# Headers — what is read as one

A reader of headers takes the longest name, then the longest gap. No blank is a word character,
so there is one way to read a header only, and the readers can be described by what they accept:

* `summary?_eq_some_iff` — a name, a gap, the keyword `struct`, perhaps a gap, and a brace;
* `definition?_eq_some_iff` — the same behind the keyword `type` and a gap;
* `exists_lead_of_summary?` — up to its brace, a header is words, spaces and tabs.

The first two hold for every class of blanks a reader may use, which is why a header read on one
line of a document is read again, with the same name, in free text.
-/

namespace FieldHint.Header

variable {blank : Char → Bool} {t r name gap gap' : Text} {h : Header}

/-- The words of a header are a name and gaps. The gap before the brace may be empty. -/
structure Words (blank : Char → Bool) (name gap gap' : Text) : Prop where
  name_ne_nil : name ≠ []
  isWord_name : ∀ c ∈ name, Text.isWord c = true
  gap_ne_nil : gap ≠ []
  blank_gap : ∀ c ∈ gap, blank c = true
  blank_gap' : ∀ c ∈ gap', blank c = true

/-- A name with a space between it and the keyword. -/
theorem Words.of_name (hName : Text.IsName name) (hGap' : ∀ c ∈ gap', Text.isSpacing c = true) :
    Words Text.isSpacing name [' '] gap' :=
  ⟨hName.ne_nil, hName.chars, by simp, Text.isSpacing_space, hGap'⟩

/-- A header without the keyword `type`, spelled out. -/
def spell (name gap gap' rest : Text) : Text :=
  name ++ (gap ++ (structKeyword ++ (gap' ++ '{' :: rest)))

theorem spell_append (u v : Text) : spell name gap gap' (u ++ v) = spell name gap gap' u ++ v := by
  simp [spell]

/-- A header with its body ends where the brace of the body stands, and the rest follows. -/
theorem spell_cons (indent u v : Text) (x : Char) :
    indent ++ spell name gap gap' (u ++ x :: v) =
      indent ++ spell name gap gap' (u ++ [x]) ++ v := by
  rw [List.append_assoc, ← spell_append, List.append_assoc, List.singleton_append]

theorem length_spell_concat (indent u : Text) (x : Char) :
    (indent ++ spell name gap gap' (u ++ [x])).length =
      (indent ++ spell name gap gap' u).length + 1 := by
  rw [spell_append, ← List.append_assoc, List.length_append, List.length_singleton]

theorem gap?_eq_some_iff :
    gap? blank t = some r ↔
      ∃ gap, t = gap ++ r ∧ gap ≠ [] ∧ (∀ c ∈ gap, blank c = true) ∧
        ∀ c ∈ r.head?, blank c = false := by
  constructor
  · intro h
    cases t with
    | nil => simp [gap?] at h
    | cons c t =>
      rw [gap?] at h
      split at h
      · next hc =>
        obtain ⟨a, b, rfl, ha, hb⟩ := Text.exists_run blank t
        rw [Text.dropWhile_run ha hb, Option.some_inj] at h
        subst h
        exact ⟨c :: a, rfl, by simp, List.forall_mem_cons.mpr ⟨hc, ha⟩, hb⟩
      · simp at h
  · rintro ⟨gap, rfl, hne, hGap, hr⟩
    obtain ⟨c, gap, rfl⟩ := List.exists_cons_of_ne_nil hne
    rw [List.forall_mem_cons] at hGap
    rw [List.cons_append, gap?, if_pos hGap.1, Text.dropWhile_run hGap.2 hr]

theorem brace?_eq_some_iff : brace? t = some r ↔ t = '{' :: r := by
  unfold brace?
  split <;> simp_all [eq_comm]

section
variable (hBlank : ∀ c, blank c = true → Text.isBlank c = true)
include hBlank

theorem isWord_of_blank {c : Char} (hc : blank c = true) : Text.isWord c = false :=
  Text.isWord_of_isBlank (hBlank c hc)

theorem blank_of_isBlank {c : Char} (hc : Text.isBlank c = false) : blank c = false := by
  by_contra h
  rw [hBlank c (Bool.eq_true_of_not_eq_false h)] at hc
  exact Bool.false_ne_true hc.symm

/-- What is read as a header without keyword. -/
theorem summary?_eq_some_iff :
    summary? blank t = some h ↔
      ∃ gap gap', Words blank h.name gap gap' ∧ t = spell h.name gap gap' h.rest := by
  constructor
  · intro hRead
    -- every run that the reader takes is the longest one, so each step has one outcome
    obtain ⟨name, u, rfl, hName, hu⟩ := Text.exists_run Text.isWord t
    simp only [summary?, Text.takeWhile_run hName hu, Text.dropWhile_run hName hu,
      Option.bind_eq_bind, Option.bind_eq_some_iff, Text.nonempty?_eq_some_iff,
      gap?_eq_some_iff, Text.after?_eq_some_iff, brace?_eq_some_iff, Option.pure_def,
      Option.some_inj] at hRead
    obtain ⟨_, ⟨rfl, hne⟩, _, ⟨gap, rfl, hGapNe, hGap, -⟩, v, rfl, rest, hBrace, rfl⟩ := hRead
    -- the gap before the brace, which may be empty
    obtain ⟨gap', w, rfl, hGap', hw⟩ := Text.exists_run blank v
    rw [Text.dropWhile_run hGap' hw] at hBrace
    exact ⟨gap, gap', ⟨hne, hName, hGapNe, hGap, hGap'⟩, by rw [hBrace]; rfl⟩
  · rintro ⟨gap, gap', hWords, rfl⟩
    -- no run goes on into what follows it
    have hHead : ∀ c ∈ (gap ++ (structKeyword ++ (gap' ++ '{' :: h.rest))).head?,
        Text.isWord c = false := by
      intro c hc
      obtain ⟨d, gap, rfl⟩ := List.exists_cons_of_ne_nil hWords.gap_ne_nil
      obtain rfl : d = c := by simpa using hc
      exact isWord_of_blank hBlank (hWords.blank_gap d List.mem_cons_self)
    have hKeyword : ∀ c ∈ (structKeyword ++ (gap' ++ '{' :: h.rest)).head?, blank c = false := by
      rintro _ ⟨⟩
      exact blank_of_isBlank hBlank (by decide)
    have hBrace : ∀ c ∈ ('{' :: h.rest).head?, blank c = false := by
      rintro _ ⟨⟩
      exact blank_of_isBlank hBlank (by decide)
    have hGap : gap? blank (gap ++ (structKeyword ++ (gap' ++ '{' :: h.rest))) =
        some (structKeyword ++ (gap' ++ '{' :: h.rest)) :=
      gap?_eq_some_iff.mpr ⟨gap, rfl, hWords.gap_ne_nil, hWords.blank_gap, hKeyword⟩
    rw [summary?, spell, Text.takeWhile_run hWords.isWord_name hHead,
      Text.dropWhile_run hWords.isWord_name hHead, Text.nonempty?_of_ne_nil hWords.name_ne_nil]
    simp [hGap, Text.dropWhile_run hWords.blank_gap' hBrace, brace?]

/-- What is read as a header with the keyword `type`. -/
theorem definition?_eq_some_iff :
    definition? blank t = some h ↔
      ∃ lead gap gap', t = typeKeyword ++ (lead ++ spell h.name gap gap' h.rest) ∧ lead ≠ [] ∧
        (∀ c ∈ lead, blank c = true) ∧ Words blank h.name gap gap' := by
  simp only [definition?, Option.bind_eq_bind, Option.bind_eq_some_iff, Text.after?_eq_some_iff,
    gap?_eq_some_iff, summary?_eq_some_iff hBlank]
  constructor
  · rintro ⟨_, rfl, _, ⟨lead, rfl, hne, hLead, -⟩, gap, gap', hWords, rfl⟩
    exact ⟨lead, gap, gap', rfl, hne, hLead, hWords⟩
  · rintro ⟨lead, gap, gap', rfl, hne, hLead, hWords⟩
    -- the gap behind the keyword ends where the name starts
    refine ⟨_, rfl, _, ⟨lead, rfl, hne, hLead, ?_⟩, gap, gap', hWords, rfl⟩
    intro c hc
    have hMem : c ∈ h.name := by
      rw [spell, List.head?_append_of_ne_nil _ hWords.name_ne_nil] at hc
      exact List.mem_of_mem_head? hc
    exact blank_of_isBlank hBlank (Text.isBlank_of_isWord (hWords.isWord_name c hMem))

end

/-- A gap for one class of blanks is a gap for a wider one. -/
theorem Words.mono {wide : Char → Bool} (h : Words blank name gap gap')
    (hWide : ∀ c, blank c = true → wide c = true) : Words wide name gap gap' where
  name_ne_nil := h.name_ne_nil
  isWord_name := h.isWord_name
  gap_ne_nil := h.gap_ne_nil
  blank_gap c hc := hWide c (h.blank_gap c hc)
  blank_gap' c hc := hWide c (h.blank_gap' c hc)

/-! ## Up to the brace -/

/-- What stands in front of the brace of a header. -/
def lead (indent name gap gap' : Text) : Text :=
  indent ++ (name ++ (gap ++ (structKeyword ++ gap')))

variable {indent : Text}

theorem lead_append (rest : Text) :
    lead indent name gap gap' ++ '{' :: rest = indent ++ spell name gap gap' rest := by
  simp [lead, spell]

/-- Text of word characters, spaces and tabs. -/
def IsWordy (t : Text) : Prop := ∀ c ∈ t, Text.isWord c = true ∨ Text.isSpacing c = true

namespace IsWordy

theorem not_mem {x : Char} (h : IsWordy t) (hWord : Text.isWord x = false)
    (hSpacing : Text.isSpacing x = false) : x ∉ t := by
  intro hMem
  rcases h x hMem with hx | hx
  · rw [hWord] at hx
    exact Bool.false_ne_true hx
  · rw [hSpacing] at hx
    exact Bool.false_ne_true hx

theorem no_newline (h : IsWordy t) : '\n' ∉ t := h.not_mem (by decide) (by decide)

theorem no_brace (h : IsWordy t) : '{' ∉ t := h.not_mem (by decide) (by decide)

theorem no_comment (h : IsWordy t) : ¬ Comment.mark <:+: t :=
  Text.not_infix_of_not_mem (x := '/') (by decide) (h.not_mem (by decide) (by decide))

/-- A name and a keyword are so, with spaces and tabs around them. -/
theorem words {keyword : Text} (hIndent : ∀ c ∈ indent, Text.isSpacing c = true)
    (hName : ∀ c ∈ name, Text.isWord c = true) (hGap : ∀ c ∈ gap, Text.isSpacing c = true)
    (hKeyword : keyword.all Text.isWord = true) (hGap' : ∀ c ∈ gap', Text.isSpacing c = true) :
    IsWordy (indent ++ (name ++ (gap ++ (keyword ++ gap')))) := by
  intro c hc
  simp only [List.mem_append] at hc
  rcases hc with hc | hc | hc | hc | hc
  · exact Or.inr (hIndent c hc)
  · exact Or.inl (hName c hc)
  · exact Or.inr (hGap c hc)
  · exact Or.inl (List.all_eq_true.mp hKeyword c hc)
  · exact Or.inr (hGap' c hc)

end IsWordy

theorem isWordy_lead (hIndent : ∀ c ∈ indent, Text.isSpacing c = true)
    (hWords : Words Text.isSpacing name gap gap') : IsWordy (lead indent name gap gap') :=
  .words hIndent hWords.isWord_name hWords.blank_gap (by decide) hWords.blank_gap'

/-- A header starts with its name, so an indent in front of it ends there. -/
theorem Words.isSpacing_head (hWords : Words Text.isSpacing name gap gap') (rest : Text) :
    ∀ c ∈ (spell name gap gap' rest).head?, Text.isSpacing c = false := by
  intro c hc
  rw [spell, List.head?_append_of_ne_nil _ hWords.name_ne_nil] at hc
  exact blank_of_isBlank (fun _ => Text.isBlank_of_isSpacing)
    (Text.isBlank_of_isWord (hWords.isWord_name c (List.mem_of_mem_head? hc)))

/-- A header behind an indent. -/
theorem summary?_indented (hIndent : ∀ c ∈ indent, Text.isSpacing c = true)
    (hWords : Words Text.isSpacing name gap gap') (rest : Text) :
    summary? Text.isSpacing ((indent ++ spell name gap gap' rest).dropWhile Text.isSpacing) =
      some ⟨name, rest⟩ := by
  rw [Text.dropWhile_run hIndent (hWords.isSpacing_head rest),
    summary?_eq_some_iff fun _ => Text.isBlank_of_isSpacing]
  exact ⟨gap, gap', hWords, rfl⟩

/-- Where a header is read behind an indent, the text is spelled so. -/
theorem exists_lead_of_summary?
    (hRead : summary? Text.isSpacing (t.dropWhile Text.isSpacing) = some h) :
    ∃ indent gap gap', t = lead indent h.name gap gap' ++ '{' :: h.rest ∧
      (∀ c ∈ indent, Text.isSpacing c = true) ∧ Words Text.isSpacing h.name gap gap' := by
  obtain ⟨indent, u, rfl, hIndent, hu⟩ := Text.exists_run Text.isSpacing t
  rw [Text.dropWhile_run hIndent hu] at hRead
  obtain ⟨gap, gap', hWords, rfl⟩ :=
    (summary?_eq_some_iff fun _ => Text.isBlank_of_isSpacing).mp hRead
  exact ⟨indent, gap, gap', (lead_append h.rest).symm, hIndent, hWords⟩

end FieldHint.Header
