import FieldHint.Proofs.Cursor.Search
import FieldHint.Proofs.Cursor.Typing
import FieldHint.Proofs.Help.Report
import FieldHint.Proofs.Json.Written
import FieldHint.Proofs.Position

/-!
# Reports — what a program reads from one

A program that asks for a report gets a text in ASCII. It reads the text as JSON, follows the keys,
and finds the struct and the place of the literal as they were put in:

* `Context.slice_typeName` — the type name of a literal is what stands in the text at its offset;
* `isLegible_payload` — no number of a report is too long to be read;
* `json_coherent` — the report is read back, and its parts agree with each other.
-/

namespace FieldHint

/-! ## Paths -/

namespace Json

/-- A step into a value: to a member of an object or to an item of an array. -/
inductive Step
  | key (name : String)
  | item (n : Nat)

/-- The value that the step leads to. -/
def Step.of? : Step → Json → Option Json
  | key name, object members => member? members name.toList
  | item n, array items => items[n]?
  | _, _ => none

/-- The value at the end of a path. -/
def at? (v : Json) (path : List Step) : Option Json := path.foldlM (fun v step => step.of? v) v

end Json

/-! ## The place of a literal -/

namespace Cursor

variable {t text name : Text} {start : Nat} {cursor : Int} {found : Context}

theorem EndsInName.slice_eq (h : EndsInName t name start) (u : Text) :
    (t ++ u).slice start (start + name.length) = name := by
  obtain ⟨lead, rfl⟩ := h.isSuffix.trans (identifierAtEnd_isSuffix t)
  have hStart : start = lead.length := by
    have hLength := h.start
    rw [List.length_append] at hLength
    omega
  rw [hStart, List.append_assoc]
  exact Text.slice_append lead name u

/-- The place of a literal is in the text: its type name stands at the offset, and no more fields
are counted than there are characters. -/
structure Context.IsIn (text : Text) (found : Context) : Prop where
  slice_name :
    text.slice found.typeNameOffset (found.typeNameOffset + found.typeName.length) = found.typeName
  offset_le : found.typeNameOffset ≤ text.length
  active_le : found.activeField ≤ text.length

theorem Context.isIn_of_context? (h : context? text cursor = some found) : found.IsIn text := by
  rw [context?_eq, Option.bind_eq_some_iff] at h
  obtain ⟨b, -, h⟩ := h
  obtain ⟨⟨name, start⟩, hName, rfl⟩ := Option.map_eq_some_iff.mp h
  have hEnds := typeName?_eq_some_iff.mp hName
  -- the text goes on behind the name with blanks and the brace
  obtain ⟨u, hu⟩ := List.rdropWhile_prefix Text.isBlank (text.take b)
  have hText : text = Text.stripEnd (text.take b) ++ (u ++ text.drop b) := by
    rw [← List.append_assoc]
    exact ((congrArg (· ++ text.drop b) hu).trans (List.take_append_drop b text)).symm
  have hLength := congrArg List.length hText
  have hStart := hEnds.start
  rw [List.length_append] at hLength
  refine ⟨?_, ?_, ?_⟩
  · have hSlice := hEnds.slice_eq (u ++ text.drop b)
    rwa [← hText] at hSlice
  · show start ≤ text.length
    omega
  · refine (countCommas_le_length _).trans ?_
    rw [Text.slice, List.length_drop, List.length_take]
    omega

end Cursor

theorem Position.ofOffset_le (text : Text) (n : Int) :
    (ofOffset text n).line ≤ text.length ∧ (ofOffset text n).character ≤ text.length := by
  have hTake : (text.take n.toNat).length ≤ text.length := List.length_take_le' _ _
  constructor
  · exact List.count_le_length.trans hTake
  · have hRun := (List.takeWhile_sublist (l := (text.take n.toNat).reverse) (· ≠ '\n')).length_le
    rw [List.length_reverse] at hRun
    exact hRun.trans hTake

/-! ## Labels -/

namespace Signature

variable {s : Struct} {p : Parameter}

/-- A parameter ends inside the label. -/
theorem stop_le_of_mem (hp : p ∈ (ofStruct s).parameters) :
    p.start ≤ p.stop ∧ p.stop ≤ (labelOf s).length := by
  obtain ⟨n, hp⟩ := List.getElem?_of_mem hp
  obtain ⟨f, hf, rfl⟩ := getElem?_parametersFrom_eq_some_iff.mp hp
  have hSlice := congrArg List.length (slice_labelOf hp hf)
  rw [Text.slice, List.length_drop, List.length_take] at hSlice
  -- nothing is missing from the piece, and it is not empty
  have hLabel : 0 < f.label.length := by simp [Field.label]
  dsimp only at hSlice ⊢
  omega

end Signature

/-! ## Numbers -/

namespace Report

open Json

variable {d : Dialect} {s : Struct} {text : Text} {found : Cursor.Context} {doc : Option Text}
  {key : String} {v : Json} {members : List (Text × Json)}

theorem isLegible_documentation : ∀ m ∈ Json.documentation doc, IsLegible d m.2 := by
  unfold Json.documentation
  split
  · simp
  · refine List.forall_mem_singleton.mpr (.object ?_)
    exact List.forall_mem_cons.mpr ⟨.string _, List.forall_mem_singleton.mpr (.string _)⟩

theorem isLegible_parameter {p : Parameter} (hStart : Text.Legible p.start)
    (hStop : Text.Legible p.stop) : IsLegible d p.toJson := by
  refine .object (List.forall_mem_cons.mpr ⟨.array ?_, isLegible_documentation⟩)
  exact List.forall_mem_cons.mpr ⟨.int hStart, List.forall_mem_singleton.mpr (.int hStop)⟩

theorem isLegible_signature (hLabel : Text.Legible (Signature.labelOf s).length) :
    IsLegible d (Signature.ofStruct s).toJson := by
  have hParameters : ∀ v ∈ (Signature.ofStruct s).parameters.map Parameter.toJson,
      IsLegible d v := by
    intro v hv
    obtain ⟨p, hp, rfl⟩ := List.mem_map.mp hv
    obtain ⟨hStart, hStop⟩ := Signature.stop_le_of_mem hp
    exact isLegible_parameter (hLabel.of_le (hStart.trans hStop)) (hLabel.of_le hStop)
  refine .object (List.forall_mem_append.mpr ⟨?_, isLegible_documentation⟩)
  exact List.forall_mem_cons.mpr ⟨.string _, List.forall_mem_singleton.mpr (.array hParameters)⟩

theorem nearest?_le {index count n : Nat} (h : SignatureHelp.nearest? index count = some n) :
    n ≤ index := by
  unfold SignatureHelp.nearest? at h
  split at h
  · cases h
  · obtain rfl := Option.some.inj h
    omega

theorem isLegible_help {active : Nat} (hActive : Text.Legible active)
    (hLabel : Text.Legible (Signature.labelOf s).length) :
    IsLegible d (SignatureHelp.ofStruct s active).toJson := by
  refine .object (List.forall_mem_append.mpr ⟨?_, ?_⟩)
  · have hFirst : Text.Legible (0 : Nat) := hActive.of_le (Nat.zero_le active)
    refine List.forall_mem_cons.mpr ⟨.array ?_, List.forall_mem_singleton.mpr (.int hFirst)⟩
    exact List.forall_mem_singleton.mpr (isLegible_signature hLabel)
  · intro m hm
    obtain ⟨n, hn, rfl⟩ := Option.map_eq_some_iff.mp (Option.mem_toList.mp hm)
    exact .int (hActive.of_le (nearest?_le hn))

/-- No number of a report is too long to be read, if the text and the label are not. -/
theorem isLegible_payload (h : found.IsIn text) (hText : Text.Legible text.length)
    (hLabel : Text.Legible (Signature.labelOf s).length) :
    IsLegible d (payload text s found.focus) := by
  -- all of them are offsets into the text, or count characters of it
  obtain ⟨hLine, hCharacter⟩ := Position.ofOffset_le text found.typeNameOffset
  have hPosition : IsLegible d (.object
      [Json.entry "line" (.nat (Position.ofOffset text found.typeNameOffset).line),
       Json.entry "character" (.nat (Position.ofOffset text found.typeNameOffset).character)]) := by
    refine .object (List.forall_mem_cons.mpr ⟨.int (hText.of_le hLine), ?_⟩)
    exact List.forall_mem_singleton.mpr (.int (hText.of_le hCharacter))
  have hOffset : Text.Legible found.typeNameOffset := hText.of_le h.offset_le
  have hActive : Text.Legible found.activeField := hText.of_le h.active_le
  refine .object (List.forall_mem_cons.mpr ⟨.object ?_, ?_⟩)
  · refine List.forall_mem_cons.mpr ⟨.string _, List.forall_mem_cons.mpr ⟨.int hOffset, ?_⟩⟩
    exact List.forall_mem_cons.mpr ⟨hPosition, List.forall_mem_singleton.mpr (.int hActive)⟩
  · exact List.forall_mem_singleton.mpr (isLegible_help hActive hLabel)

end Report

/-! ## Paths through signature help -/

section
variable (path : List Json.Step)

theorem Json.at?_item (items : List Json) (n : Nat) :
    (Json.array items).at? (.item n :: path) = items[n]?.bind (·.at? path) := rfl

theorem Parameter.at?_label (p : Parameter) :
    p.toJson.at? [.key "label"] = some (.array [.nat p.start, .nat p.stop]) := by
  unfold Parameter.toJson Json.documentation
  cases p.doc.bind Text.nonempty? <;> rfl

theorem Parameter.at?_documentation (p : Parameter) :
    p.toJson.at? [.key "documentation", .key "value"] =
      (p.doc.bind Text.nonempty?).map .string := by
  unfold Parameter.toJson Json.documentation
  cases p.doc.bind Text.nonempty? <;> rfl

theorem Signature.at?_label (g : Signature) :
    g.toJson.at? [.key "label"] = some (.string g.label) := by
  unfold Signature.toJson Json.documentation
  cases g.doc.bind Text.nonempty? <;> rfl

theorem Signature.at?_documentation (g : Signature) :
    g.toJson.at? [.key "documentation", .key "value"] =
      (g.doc.bind Text.nonempty?).map .string := by
  unfold Signature.toJson Json.documentation
  cases g.doc.bind Text.nonempty? <;> rfl

theorem Signature.at?_parameters (g : Signature) :
    g.toJson.at? (.key "parameters" :: path) =
      (Json.array (g.parameters.map Parameter.toJson)).at? path := by
  unfold Signature.toJson Json.documentation
  cases g.doc.bind Text.nonempty? <;> rfl

theorem SignatureHelp.at?_signatures (h : SignatureHelp) :
    h.toJson.at? (.key "signatures" :: path) =
      (Json.array (h.signatures.map Signature.toJson)).at? path := by
  unfold SignatureHelp.toJson
  cases h.activeParameter <;> rfl

theorem SignatureHelp.at?_activeSignature (h : SignatureHelp) :
    h.toJson.at? [.key "activeSignature"] = some (.nat h.activeSignature) := by
  unfold SignatureHelp.toJson
  cases h.activeParameter <;> rfl

theorem SignatureHelp.at?_activeParameter (h : SignatureHelp) :
    h.toJson.at? [.key "activeParameter"] = h.activeParameter.map .nat := by
  unfold SignatureHelp.toJson
  cases h.activeParameter <;> rfl

end

namespace Report

open Json

variable {s : Struct} {text : Text} {found : Cursor.Context}

/-! ## What a program reads -/

/-- The way to the signature in a report. -/
def signaturePath : List Step := [.key "signatureHelp", .key "signatures", .item 0]

/-- A report on a struct, as it is read, is about the literal, and its parts agree with each other
and with the text: the position and the offset are the same place, where the type name stands; every
field has its parameter, which cuts the name and the type of the field out of the label; and the
active parameter is the field that is written, or the last one. What is not there has no member. -/
structure Coherent (text : Text) (s : Struct) (found : Cursor.Context) (report : Json) : Prop where
  typeName : report.at? [.key "context", .key "typeName"] = some (.string found.typeName)
  typeNameOffset :
    report.at? [.key "context", .key "typeNameOffset"] = some (.int found.typeNameOffset)
  name_at_offset :
    text.slice found.typeNameOffset (found.typeNameOffset + found.typeName.length) = found.typeName
  typePosition : ∃ line character : Int,
    report.at? [.key "context", .key "typePosition", .key "line"] = some (.int line) ∧
    report.at? [.key "context", .key "typePosition", .key "character"] = some (.int character) ∧
    Position.toOffset text (Position.clamped line character) = found.typeNameOffset
  activeFieldIndex :
    report.at? [.key "context", .key "activeFieldIndex"] = some (.int found.activeField)
  signatures : ∃ signature,
    report.at? [.key "signatureHelp", .key "signatures"] = some (.array [signature])
  activeSignature : report.at? [.key "signatureHelp", .key "activeSignature"] = some (.int 0)
  label : report.at? (signaturePath ++ [.key "label"]) = some (.string (Signature.labelOf s))
  documentation : report.at? (signaturePath ++ [.key "documentation", .key "value"]) =
    (s.doc.bind Text.nonempty?).map .string
  parameters : ∃ parameters, parameters.length = s.fields.length ∧
    report.at? (signaturePath ++ [.key "parameters"]) = some (.array parameters)
  parameter : ∀ n f, s.fields[n]? = some f →
    (∃ start stop : Nat,
      report.at? (signaturePath ++ [.key "parameters", .item n, .key "label"]) =
        some (.array [.int start, .int stop]) ∧
      (Signature.labelOf s).slice start stop = f.name ++ ' ' :: f.typeExpr) ∧
    report.at? (signaturePath ++ [.key "parameters", .item n, .key "documentation", .key "value"]) =
      (f.doc.bind Text.nonempty?).map .string
  activeParameter : report.at? [.key "signatureHelp", .key "activeParameter"] =
    if s.fields = [] then none
    else some (.int (min found.activeField (s.fields.length - 1) : Nat))

theorem help_at? (path : List Step) :
    (payload text s found.focus).at? (.key "signatureHelp" :: path) =
      (SignatureHelp.ofStruct s found.activeField).toJson.at? path := rfl

theorem signature_at? (path : List Step) :
    (payload text s found.focus).at? (signaturePath ++ path) =
      (Signature.ofStruct s).toJson.at? path := by
  unfold signaturePath
  rw [List.cons_append, help_at?, List.cons_append, SignatureHelp.at?_signatures]
  rfl

theorem parameter_at? {n : Nat} {p : Parameter}
    (hp : (Signature.ofStruct s).parameters[n]? = some p) (path : List Step) :
    (payload text s found.focus).at? (signaturePath ++ .key "parameters" :: .item n :: path) =
      p.toJson.at? path := by
  rw [signature_at?, Signature.at?_parameters, at?_item, List.getElem?_map, hp]
  rfl

theorem coherent_payload (h : found.IsIn text) :
    Coherent text s found (payload text s found.focus) where
  typeName := rfl
  typeNameOffset := rfl
  name_at_offset := h.slice_name
  typePosition := ⟨_, _, rfl, rfl, Position.toOffset_ofOffset h.offset_le⟩
  activeFieldIndex := rfl
  signatures := ⟨_, (help_at? _).trans (SignatureHelp.at?_signatures [] _)⟩
  activeSignature := (help_at? _).trans (SignatureHelp.at?_activeSignature _)
  label := (signature_at? _).trans (Signature.at?_label _)
  documentation := (signature_at? _).trans (Signature.at?_documentation _)
  parameters := by
    refine ⟨_, ?_, (signature_at? _).trans (Signature.at?_parameters [] _)⟩
    rw [List.length_map]
    exact Signature.length_parametersFrom _ _
  parameter n f hf := by
    have hParameter : (Signature.ofStruct s).parameters[n]? = some _ :=
      Signature.getElem?_parametersFrom_eq_some_iff.mpr ⟨f, hf, rfl⟩
    refine ⟨⟨_, _, ?_, Signature.slice_labelOf hParameter hf⟩, ?_⟩
    · rw [parameter_at? hParameter, Parameter.at?_label]
      rfl
    · rw [parameter_at? hParameter, Parameter.at?_documentation]
  activeParameter := by
    -- no field is highlighted where there is none, and the last one at the latest
    rw [help_at?, SignatureHelp.at?_activeParameter, SignatureHelp.ofStruct, SignatureHelp.nearest?]
    simp only [List.length_eq_zero_iff]
    split <;> rfl

/-- Reports for programs make sense. Of every struct, and every literal that is found around a
cursor, the report is a text in ASCII and a document of JSON proper; it is read as a value in which
every string is the one that was put in, and whose parts agree with each other and with the text.

A number of more than 4300 digits is refused by the reader. The numbers of a report are offsets, so
none is that long unless the text or the label has more than 10 ^ 4300 characters. -/
theorem json_coherent {cursor : Int} (h : Cursor.context? text cursor = some found)
    (hText : Text.Legible text.length) (hLabel : Text.Legible (Signature.labelOf s).length) :
    (json text s found.focus).IsAscii ∧
      ∃ report, IsDocument .proper report (json text s found.focus) ∧
        Json.read (json text s found.focus) = .ok report ∧ Coherent text s found report := by
  have hPlace := Cursor.Context.isIn_of_context? h
  refine ⟨isAscii_toText _, payload text s found.focus, ?_, ?_, coherent_payload hPlace⟩
  · exact isDocument_toText (isLegible_payload hPlace hText hLabel)
  · exact read_toText (d := .extended) (isLegible_payload hPlace hText hLabel)

/-- A struct whose comments hold a quote, a backslash, control characters, and characters that take
a pair of code units. -/
def thornyStruct : Struct :=
  ⟨['T'], [⟨['a'], ['[', ']', '😀'], none, some ['"', '\\', '\u2028', '\x7f']⟩,
    ⟨['b'], ['U'], some [], some []⟩], some [Char.ofNat 0x10FFFF, '\n', '\x01', '\ue000']⟩

/-- A literal on the second line. Two of its fields are written. -/
def thornyText : Text := "\n😀p.T\x7b1,2,".toList

/-- The theorem at that struct and that literal, whose third field is being written though the
struct has two. -/
theorem json_coherent_thorny :
    Cursor.context? thornyText 10 = some ⟨['T'], 4, 2⟩ ∧
      Text.Legible thornyText.length ∧
      Text.Legible (Signature.labelOf thornyStruct).length ∧
      ∃ report, Json.read (json thornyText thornyStruct ⟨['T'], 4, 2⟩) = .ok report ∧
        Coherent thornyText thornyStruct ⟨['T'], 4, 2⟩ report ∧
        report.at? [.key "signatureHelp", .key "activeParameter"] = some (.int 1) := by
  have hContext : Cursor.context? thornyText 10 = some ⟨['T'], 4, 2⟩ := by decide
  have hText : Text.Legible thornyText.length :=
    Text.legible_of_lt_pow (k := 2) (by decide) (by decide)
  have hLabel : Text.Legible (Signature.labelOf thornyStruct).length :=
    Text.legible_of_lt_pow (k := 2) (by decide) (by decide)
  obtain ⟨-, report, -, hRead, hCoherent⟩ := json_coherent hContext hText hLabel
  exact ⟨hContext, hText, hLabel, report, hRead, hCoherent, hCoherent.activeParameter⟩

end Report

end FieldHint
