import FieldHint.Struct.Basic

/-!
# Signature help

A struct as an editor shows the signature of a function: a label `Name{a A, b B}`, of which every
field is one parameter, and the parameter to highlight.
-/

namespace FieldHint

/-- A parameter: the offsets in the label where it starts and ends. -/
structure Parameter where
  start : Nat
  stop : Nat
  doc : Option Text := none
  deriving DecidableEq, Repr

/-- A signature with its parameters in order. -/
structure Signature where
  label : Text
  doc : Option Text := none
  parameters : List Parameter := []
  deriving DecidableEq, Repr

/-- What an editor shows: signatures, the one that is meant, and the parameter to highlight. -/
structure SignatureHelp where
  signatures : List Signature
  activeSignature : Nat := 0
  activeParameter : Option Nat := none
  deriving DecidableEq, Repr

namespace Signature

/-- What stands between two fields of a label. -/
def separator : Text := [',', ' ']

/-- The label of a struct. -/
def labelOf (s : Struct) : Text :=
  s.name ++ '{' :: Text.join separator (s.fields.map Field.label) ++ ['}']

/-- The parameters of fields whose labels start at an offset. -/
def parametersFrom (start : Nat) : List Field → List Parameter
  | [] => []
  | f :: fields =>
    let stop := start + f.label.length
    ⟨start, stop, f.doc⟩ :: parametersFrom (stop + separator.length) fields

/-- The signature of a struct. -/
def ofStruct (s : Struct) : Signature :=
  ⟨labelOf s, s.doc, parametersFrom (s.name.length + 1) s.fields⟩

end Signature

namespace SignatureHelp

/-- The parameter to highlight among `count`: the nearest one to an index, if there is any. -/
def nearest? (index : Int) (count : Nat) : Option Nat :=
  if count = 0 then none else some (min index.toNat (count - 1))

/-- The help for a struct whose field with an index is being written. -/
def ofStruct (s : Struct) (index : Int) : SignatureHelp :=
  ⟨[Signature.ofStruct s], 0, nearest? index s.fields.length⟩

end SignatureHelp

end FieldHint
