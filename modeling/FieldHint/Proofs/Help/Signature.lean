import FieldHint.Help.Signature
import FieldHint.Proofs.Text.Cut

/-!
# Signature help — the parameters of a label

The offsets of the parameters are counted along the fields, the label is joined from them. Here the
two are put together: `Signature.slice_labelOf` says that a parameter marks the piece of the label
that is its field, and `SignatureHelp.parameters_cut_label` that the parameters leave nothing of the
label over but the name, the braces and the separators.
-/

namespace FieldHint

variable {s : Struct} {f : Field} {p : Parameter} {n : Nat}

/-! ## Labels -/

namespace Signature

/-- The labels of the fields in front of the one with an index, each with a comma and a space. -/
def labelsBefore (fields : List Field) (n : Nat) : Text :=
  (fields.take n).flatMap fun f => f.name ++ ' ' :: f.typeExpr ++ [',', ' ']

/-- Behind a field, its own label and the separator are in front. -/
theorem labelsBefore_succ {fields : List Field} (hf : fields[n]? = some f) :
    labelsBefore fields (n + 1) = labelsBefore fields n ++ (f.label ++ separator) := by
  obtain ⟨hn, rfl⟩ := List.getElem?_eq_some_iff.mp hf
  rw [labelsBefore, List.take_succ_eq_append_getElem hn, List.flatMap_append,
    List.flatMap_singleton]
  rfl

/-- The parameters by their pairs of offsets and their comments: each starts behind the labels in
front of it, and is as long as its own label. -/
theorem parametersFrom_eq_mapIdx (start : Nat) (fields : List Field) :
    parametersFrom start fields = fields.mapIdx fun n f =>
      ⟨start + (labelsBefore fields n).length,
        start + (labelsBefore fields n).length + (f.name ++ ' ' :: f.typeExpr).length, f.doc⟩ := by
  induction fields generalizing start with
  | nil => rfl
  | cons f fields ih =>
    have hBefore : ∀ n, start + (labelsBefore (f :: fields) (n + 1)).length =
        start + f.label.length + separator.length + (labelsBefore fields n).length := by
      intro n
      simp only [labelsBefore, List.take_succ_cons, List.flatMap_cons, List.length_append,
        Field.label, separator]
      omega
    rw [parametersFrom, ih, List.mapIdx_cons]
    simp only [hBefore]
    rfl

theorem length_parametersFrom (start : Nat) (fields : List Field) :
    (parametersFrom start fields).length = fields.length := by
  rw [parametersFrom_eq_mapIdx, List.length_mapIdx]

/-- So each parameter is that of a field, as long as its label, with the comment on the field. -/
theorem getElem?_parametersFrom_eq_some_iff {start : Nat} {fields : List Field} :
    (parametersFrom start fields)[n]? = some p ↔
      ∃ f, fields[n]? = some f ∧ ⟨start + (labelsBefore fields n).length,
        start + (labelsBefore fields n).length + f.label.length, f.doc⟩ = p := by
  rw [parametersFrom_eq_mapIdx, List.getElem?_mapIdx, Option.map_eq_some_iff]
  rfl

theorem exists_join_cons (t : Text) (ts : List Text) (after : Text) :
    ∃ rest, Text.join separator (t :: ts) ++ after = t ++ rest := by
  cases ts with
  | nil => exact ⟨after, by rw [Text.join, List.intercalate_singleton]⟩
  | cons u ts =>
    rw [Text.join, List.intercalate_cons_cons, List.append_assoc, List.append_assoc]
    exact ⟨_, rfl⟩

/-- In labels behind some other text, a parameter marks the label of its field. -/
theorem slice_parametersFrom {fields : List Field} (before after : Text)
    (hp : (parametersFrom before.length fields)[n]? = some p) (hf : fields[n]? = some f) :
    (before ++ (Text.join separator (fields.map Field.label) ++ after)).slice p.start p.stop =
      f.label := by
  induction fields generalizing n before with
  | nil => simp at hf
  | cons g fields ih =>
    rw [List.map_cons]
    cases n with
    | zero =>
      obtain rfl := Option.some_inj.mp hp
      obtain rfl := Option.some_inj.mp hf
      obtain ⟨rest, hRest⟩ := exists_join_cons g.label (fields.map Field.label) after
      rw [hRest]
      exact Text.slice_append before g.label rest
    | succ n =>
      have hne : fields.map Field.label ≠ [] := by
        intro h
        rw [List.map_eq_nil_iff] at h
        simp [h] at hf
      -- the other labels stand behind this one and the separator
      have hBefore : before.length + g.label.length + separator.length =
          (before ++ g.label ++ separator).length := by
        rw [List.length_append, List.length_append]
      have hRest := ih (before ++ g.label ++ separator) (hBefore ▸ hp) hf
      rw [Text.join, List.intercalate_cons_of_ne_nil hne]
      simpa [Text.join] using hRest

/-- A parameter marks the piece of the label that shows its field. -/
theorem slice_labelOf (hp : (ofStruct s).parameters[n]? = some p) (hf : s.fields[n]? = some f) :
    (labelOf s).slice p.start p.stop = f.label := by
  have hLength : s.name.length + 1 = (s.name ++ ['{']).length := by simp
  have hParameter : (parametersFrom (s.name ++ ['{']).length s.fields)[n]? = some p := hLength ▸ hp
  have hSlice := slice_parametersFrom (s.name ++ ['{']) ['}'] hParameter hf
  simpa [labelOf] using hSlice

/-! ## Seams

Between a parameter and the next there is the separator, and nothing else.
-/

variable {fields : List Field} {q : Parameter} {start : Nat}

theorem start_of_head? (hp : (parametersFrom start fields).head? = some p) : p.start = start := by
  rw [List.head?_eq_getElem?] at hp
  obtain ⟨f, -, rfl⟩ := getElem?_parametersFrom_eq_some_iff.mp hp
  rfl

theorem start_succ (hp : (parametersFrom start fields)[n]? = some p)
    (hq : (parametersFrom start fields)[n + 1]? = some q) : q.start = p.stop + 2 := by
  obtain ⟨f, hf, rfl⟩ := getElem?_parametersFrom_eq_some_iff.mp hp
  obtain ⟨g, -, rfl⟩ := getElem?_parametersFrom_eq_some_iff.mp hq
  have hSeparator : separator.length = 2 := rfl
  show start + (labelsBefore fields (n + 1)).length =
    start + (labelsBefore fields n).length + f.label.length + 2
  rw [labelsBefore_succ hf, List.length_append, List.length_append]
  omega

/-- The last parameter stops where the joined labels do. -/
theorem stop_of_getLast? (hp : (parametersFrom start fields).getLast? = some p) :
    p.stop = start + (Text.join separator (fields.map Field.label)).length := by
  induction fields generalizing start with
  | nil => simp [parametersFrom] at hp
  | cons f fields ih =>
    cases fields with
    | nil =>
      have hStop : start + f.label.length = p.stop := congrArg Parameter.stop (Option.some.inj hp)
      rw [← hStop, Text.join, List.map_singleton, List.intercalate_singleton]
    | cons g fields =>
      -- the other labels stand behind this one and the separator
      have hLast : (parametersFrom (start + f.label.length + separator.length)
          (g :: fields)).getLast? = some p := hp
      simp only [ih hLast, Text.join, List.map_cons, List.intercalate_cons_cons,
        List.length_append]
      omega

/-- A signature is cut by its parameters into the fields of a struct: its label is the name with the
fields in braces; there is a parameter for each field, in order, and it marks the field; the first
starts behind the opening brace, each other behind the separator, and the last ends before the
closing brace. -/
structure Cuts (s : Struct) (g : Signature) : Prop where
  label_eq : g.label = s.name ++ '{' ::
    Text.join [',', ' '] (s.fields.map fun f => f.name ++ ' ' :: f.typeExpr) ++ ['}']
  length_eq : g.parameters.length = s.fields.length
  slice_eq : ∀ (n : Nat) (p : Parameter) (f : Field),
    g.parameters[n]? = some p → s.fields[n]? = some f →
      g.label.slice p.start p.stop = f.name ++ ' ' :: f.typeExpr ∧ p.doc = f.doc
  first : ∀ p : Parameter, g.parameters.head? = some p → p.start = s.name.length + 1
  next : ∀ (n : Nat) (p q : Parameter),
    g.parameters[n]? = some p → g.parameters[n + 1]? = some q → q.start = p.stop + 2
  last : ∀ p : Parameter, g.parameters.getLast? = some p → p.stop + 1 = g.label.length

theorem cuts_ofStruct (s : Struct) : Cuts s (ofStruct s) where
  label_eq := rfl
  length_eq := length_parametersFrom _ _
  slice_eq := by
    intro n p f hp hf
    refine ⟨slice_labelOf hp hf, ?_⟩
    obtain ⟨g, hg, rfl⟩ := getElem?_parametersFrom_eq_some_iff.mp hp
    rw [Option.some.inj (hf.symm.trans hg)]
  first := by
    intro p hp
    exact start_of_head? hp
  next := by
    intro n p q hp hq
    exact start_succ hp hq
  last := by
    intro p hp
    rw [stop_of_getLast? hp, ofStruct, labelOf, List.length_append, List.length_append,
      List.length_cons, List.length_singleton]
    omega

end Signature

/-! ## The active parameter -/

namespace SignatureHelp

variable {index later : Int} {count m : Nat}

theorem nearest?_eq_none_iff : nearest? index count = none ↔ count = 0 := by
  rw [nearest?]
  split <;> simp_all

/-- The nearest parameter has the index that is asked for, moved into the range of all. -/
theorem nearest?_eq_some_iff :
    nearest? index count = some m ↔
      count ≠ 0 ∧ (m : Int) = max 0 (min index ((count : Int) - 1)) := by
  rw [nearest?]
  split
  · simp_all
  · rw [Option.some.injEq]
    omega

theorem nearest?_mono (hIndex : index ≤ later) (hm : nearest? index count = some m)
    (hn : nearest? later count = some n) : m ≤ n := by
  have hIndexClamp := (nearest?_eq_some_iff.mp hm).2
  have hLaterClamp := (nearest?_eq_some_iff.mp hn).2
  omega

/-- The help for a struct is one signature, which its parameters cut into the fields. No parameter
is active if the struct has no fields, otherwise the one whose index is nearest to the index that is
asked for: a later index never makes an earlier parameter active. -/
theorem parameters_cut_label (s : Struct) (index : Int) :
    (∃ g, (ofStruct s index).signatures = [g] ∧ Signature.Cuts s g) ∧
    ((ofStruct s index).activeParameter = none ↔ s.fields = []) ∧
    (∀ n, (ofStruct s index).activeParameter = some n ↔
      s.fields ≠ [] ∧ (n : Int) = max 0 (min index ((s.fields.length : Int) - 1))) ∧
    ∀ later m n, index ≤ later → (ofStruct s index).activeParameter = some m →
      (ofStruct s later).activeParameter = some n → m ≤ n := by
  have hEmpty : s.fields.length = 0 ↔ s.fields = [] := List.length_eq_zero_iff
  refine ⟨⟨_, rfl, Signature.cuts_ofStruct s⟩, ?_, ?_, ?_⟩
  · exact nearest?_eq_none_iff.trans hEmpty
  · intro n
    rw [ne_eq, ← hEmpty]
    exact nearest?_eq_some_iff
  · intro later m n hIndex hm hn
    exact nearest?_mono hIndex hm hn

/-- What is in a label is not looked at: braces, commas and empty texts are cut like any other. -/
example :
    ofStruct ⟨['T', '{'], [⟨['a'], ['b', ',', ' ', 'c'], none, none⟩, ⟨[], [], none, none⟩], none⟩ 7
      = ⟨[⟨"T\x7b\x7ba b, c,  \x7d".toList, none, [⟨3, 9, none⟩, ⟨11, 12, none⟩]⟩], 0, some 1⟩ := by
  decide

end SignatureHelp

end FieldHint
