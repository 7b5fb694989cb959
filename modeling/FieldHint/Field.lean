import FieldHint.Text.Basic

/-!
# Fields

A named field of a struct: its type as it is written, its tag and its comment.
-/

namespace FieldHint

/-- A named field. An empty tag is a tag; an empty comment is none. -/
structure Field where
  name : Text
  typeExpr : Text
  tag : Option Text := none
  doc : Option Text := none
  deriving DecidableEq, Repr

namespace Field

/-- How a signature shows the field. -/
def label (f : Field) : Text := f.name ++ ' ' :: f.typeExpr

/-- The field as one row of a struct body. An empty tag is left out. -/
def row (f : Field) : Text :=
  f.label ++
    (match f.tag.bind Text.nonempty? with
      | some tag => [' ', '\x60'] ++ tag ++ ['\x60']
      | none => []) ++
    (match f.doc.bind Text.nonempty? with
      | some doc => [' ', '/', '/', ' '] ++ doc
      | none => [])

end Field

end FieldHint
