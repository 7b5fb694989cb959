import FieldHint.Help.Provider
import FieldHint.Trace.Event

/-!
# The events of a search

For each step of the search the events that it gives rise to, in order. They are kept apart from
the steps' results, which do not depend on them.
-/

namespace FieldHint.Trace

/-- The events of looking for the literal around a cursor. -/
def ofSite : Cursor.Site → List Event
  | .untyped brace => [.untypedBrace brace]
  | _ => []

/-- The event of reading a row. Comments are passed over in silence. -/
def ofRow : Row → Option Event
  | .skipped _ .comment => none
  | .skipped line reason => some (.skippedRow line reason)
  | .field _ => none

/-- The events of reading the rows of a struct body. -/
def ofBody (body : Text) : List Event := (Row.ofBody body).filterMap ofRow

/-- The events of reading a description. An empty one is passed over in silence. -/
def ofDescription (language text : Text) : List Event :=
  if text.isEmpty then []
  else match NamedBody.find? (Description.ofText language text).code with
    | some found => ofBody found.body
    | none => [.noStruct text.length]

/-- The events of looking for a declaration. -/
def ofDeclaration (language document typeName : Text) : List Event :=
  match Declaration.describe? language document typeName with
  | some _ => []
  | none => [.undeclared typeName]

/-- The events of asking a provider. -/
def ofProvider (p : Provider) (document typeName : Text) : List Event :=
  match p with
  | .document language => ofDeclaration language document typeName
  | .hoverFile path (.error failure) => [.hoverUnreadable path failure]
  | .hoverFile path (.ok raw) =>
    match Hover.Saved.ofText raw with
    | .notJson _ error => [.hoverNotJson path error]
    | _ => []
  | .fixed _ => []

/-- The events of looking for help at a cursor. -/
def ofHelp (language : Text) (p : Provider) (document : Text) (cursor : Int) : List Event :=
  let site := Cursor.Site.around document cursor
  ofSite site ++
    match site.context? with
    | none => []
    | some context =>
      ofProvider p document context.typeName ++
        match p.description? document context with
        | none => [.undescribed context.typeName]
        | some description => ofDescription language description

end FieldHint.Trace
