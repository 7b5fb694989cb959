import FieldHint.Cursor.Context
import FieldHint.Help.Lsp
import FieldHint.Json.Writer
import FieldHint.Position

/-!
# Reports

What is printed about a struct and the field being written: rows for people, or JSON for programs.
-/

namespace FieldHint

/-- What a report is about: a type name, where it stands, and the index of a field. Any integers
will do; the report moves them to the nearest sensible ones where it has to. -/
structure Focus where
  typeName : Text
  typeNameOffset : Int
  activeField : Int
  deriving DecidableEq, Repr

/-- The focus of a literal around the cursor. -/
def Cursor.Context.focus (c : Context) : Focus := ⟨c.typeName, c.typeNameOffset, c.activeField⟩

namespace Report

/-- The marks in front of rows: one for the row of the active field, one for the others. -/
def marker (active : Bool) : Text := if active then ['>', ' '] else [' ', ' ']

/-- A row for each field. -/
def rows (active : Option Nat) (fields : List Field) : List Text :=
  fields.mapIdx fun n f => marker (active = some n) ++ f.row

/-- The lines of a report: the comment on the struct if there is one, its label, its fields. -/
def lines (s : Struct) (index : Int) : List Text :=
  (s.doc.bind Text.nonempty?).toList ++
    Signature.labelOf s :: rows (SignatureHelp.nearest? index s.fields.length) s.fields

/-- The report for people. -/
def text (s : Struct) (focus : Focus) : Text := Text.join ['\n'] (lines s focus.activeField)

/-- The report for programs as a value. -/
def payload (document : Text) (s : Struct) (focus : Focus) : Json :=
  let position := Position.ofOffset document focus.typeNameOffset
  .object
    [Json.entry "context" (.object
      [Json.entry "typeName" (.string focus.typeName),
       Json.entry "typeNameOffset" (.int focus.typeNameOffset),
       Json.entry "typePosition" (.object
        [Json.entry "line" (.nat position.line), Json.entry "character" (.nat position.character)]),
       Json.entry "activeFieldIndex" (.int focus.activeField)]),
     Json.entry "signatureHelp" (SignatureHelp.ofStruct s focus.activeField).toJson]

/-- The report for programs. -/
def json (document : Text) (s : Struct) (focus : Focus) : Text :=
  (payload document s focus).toText

end Report

end FieldHint
