import FieldHint.Cursor.Context
import FieldHint.Declaration.Lookup
import FieldHint.Description.Basic
import FieldHint.File.Disk
import FieldHint.Help.Signature
import FieldHint.Hover.Saved

/-!
# Providers of descriptions

Where the description of a type comes from: the document itself, a saved hover response, or a
host that has one text for every type.
-/

namespace FieldHint

/-- A source of descriptions. -/
inductive Provider
  | document (language : Text)
  | hoverFile (path : Path) (content : Except ReadFailure Text)
  | fixed (text : Option Text)

namespace Provider

/-- The description of the type of a literal in a document. Only the document itself is asked
about the type's name. -/
def describe? (p : Provider) (document : Text) (context : Cursor.Context) : Option Text :=
  match p with
  | .document language => Declaration.describe? language document context.typeName
  | .hoverFile _ (.ok raw) => (Hover.Saved.ofText raw).text?
  | .hoverFile _ (.error _) => none
  | .fixed text => text

/-- The description, unless it is empty. -/
def description? (p : Provider) (document : Text) (context : Cursor.Context) : Option Text :=
  (p.describe? document context).bind Text.nonempty?

/-- The struct that the description is read as. -/
def struct? (p : Provider) (language document : Text) (context : Cursor.Context) :
    Option Struct :=
  (p.description? document context).bind (Struct.ofText? language)

/-- The provider with the stand-in for every half of a pair in what it has saved. -/
def respelled : Provider → Provider
  | .hoverFile path (.ok raw) => .hoverFile path (.ok (Hover.Saved.respell raw))
  | p => p

end Provider

namespace SignatureHelp

/-- The help at a cursor: for the type of the literal around it, with the field highlighted that
is being written. -/
def at? (language : Text) (p : Provider) (document : Text) (cursor : Int) :
    Option SignatureHelp := do
  let context ← Cursor.context? document cursor
  let s ← p.struct? language document context
  return ofStruct s context.activeField

end SignatureHelp

end FieldHint
