import FieldHint.Body.Row
import FieldHint.Description.Fence
import FieldHint.Struct.Basic
import FieldHint.Struct.Header

/-!
# Descriptions of structs

A description is markdown, such as an editor shows when the pointer rests on a type. If it holds
a fenced block, the struct is looked for in there and the prose before the block documents it;
otherwise the whole text is searched.
-/

namespace FieldHint

/-- The parts of a description: the text to search, and what is said before it. -/
structure Description where
  code : Text
  doc : Option Text := none
  deriving DecidableEq, Repr

namespace Description

/-- The parts of a text in which blocks are marked with the language. -/
def ofText (language text : Text) : Description :=
  match Fence.find? language text with
  | some (prose, code) => ⟨code, (Text.strip prose).nonempty?⟩
  | none => ⟨text, none⟩

/-- The struct that a named body and a comment make up. -/
def toStruct (doc : Option Text) (found : NamedBody) : Struct :=
  ⟨found.name, Field.ofBody found.body, doc⟩

/-- The struct that the description describes. -/
def struct? (d : Description) : Option Struct := (NamedBody.find? d.code).map (toStruct d.doc)

end Description

namespace Struct

/-- The language of the blocks that are read where nothing else is set. -/
def defaultLanguage : Text := ['g', 'o']

/-- The struct that a text describes. -/
def ofText? (language text : Text) : Option Struct := (Description.ofText language text).struct?

end Struct

end FieldHint
