import FieldHint.Body.Pieces
import FieldHint.Field
import FieldHint.Text.Word

/-!
# Rows of a struct body

A row declares a field if it is a name, a type, and then perhaps a tag and a comment. Nothing in
the type is interpreted. Other rows are skipped: comments, embedded types, and what is neither.
-/

namespace FieldHint

/-- Why a row declares no field. -/
inductive Skip
  | comment
  | embedded
  | unrecognized
  deriving DecidableEq, Repr

/-- What a row of a struct body is. -/
inductive Row
  | field (field : Field)
  | skipped (line : Text) (reason : Skip)
  deriving DecidableEq, Repr

namespace Row

/-- Whether a tag or a comment starts here. -/
def atMark : Text → Bool
  | '\x60' :: _ => true
  | '/' :: '/' :: _ => true
  | _ => false

/-- The text before its first tag or comment. -/
def untilMark : Text → Text
  | [] => []
  | c :: t => if atMark (c :: t) then [] else c :: untilMark t

/-- The text from its first tag or comment on. -/
def fromMark : Text → Text
  | [] => []
  | c :: t => if atMark (c :: t) then c :: t else fromMark t

/-- The comment that makes up the rest of a row, if the rest is empty or a comment. -/
def comment? : Text → Option (Option Text)
  | [] => some none
  | '/' :: '/' :: t => some (Text.strip t).nonempty?
  | _ => none

/-- The tag and the comment that make up the rest of a row. -/
def trailer? : Text → Option (Option Text × Option Text)
  | '\x60' :: t =>
    match t.dropWhile (· ≠ '\x60') with
    | [] => none
    | _ :: rest =>
      (comment? (Text.stripStart rest)).map (some (t.takeWhile (· ≠ '\x60')), ·)
  | t => (comment? t).map (none, ·)

/-- The field that a row declares. -/
def field? (line : Text) : Option Field :=
  let name := line.takeWhile Text.isWord
  match line.dropWhile Text.isWord with
  | [] => none
  | c :: t =>
    if name.isEmpty || !Text.isBlank c then none
    else
      let rest := Text.stripStart t
      let typeExpr := Text.strip (untilMark rest)
      if typeExpr.isEmpty then none
      else (trailer? (fromMark rest)).map fun (tag, doc) => ⟨name, typeExpr, tag, doc⟩

/-- Nothing, or one group in square brackets. -/
def isIndex : Text → Bool
  | [] => true
  | '[' :: t => t.dropWhile (· ≠ ']') = [']']
  | _ => false

/-- A name and perhaps a group in square brackets. -/
def isIndexedName (t : Text) : Bool :=
  !(t.takeWhile Text.isWord).isEmpty && isIndex (t.dropWhile Text.isWord)

/-- A name, perhaps with a qualifier, and perhaps a group in square brackets. -/
def isTypeName (t : Text) : Bool :=
  isIndexedName t ||
    (!(t.takeWhile Text.isWord).isEmpty &&
      match t.dropWhile Text.isWord with
      | '.' :: u => isIndexedName u
      | _ => false)

/-- The type that a row embeds: a type name, perhaps behind a star. -/
def isEmbedded : Text → Bool
  | '*' :: t => isTypeName t
  | t => isTypeName t

/-- What a line is. -/
def ofLine (line : Text) : Row :=
  if Comment.opens line then .skipped line .comment
  else
    match field? line with
    | some f => .field f
    | none =>
      .skipped line (if isEmbedded (Text.strip (untilMark line)) then .embedded else .unrecognized)

/-- The field that the row declares. -/
def toField? : Row → Option Field
  | .field f => some f
  | .skipped _ _ => none

/-- The rows of a struct body. -/
def ofBody (body : Text) : List Row := (Body.pieces body).map ofLine

end Row

namespace Field

/-- The named fields of a struct body, in order. -/
def ofBody (body : Text) : List Field := (Row.ofBody body).filterMap Row.toField?

end Field

end FieldHint
