import FieldHint.Field

/-!
# Structs
-/

namespace FieldHint

/-- A struct: its named fields in order, and what is said about it. -/
structure Struct where
  name : Text
  fields : List Field := []
  doc : Option Text := none
  deriving DecidableEq, Repr

end FieldHint
