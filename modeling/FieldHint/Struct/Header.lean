import FieldHint.Brace
import FieldHint.Text.Blank
import FieldHint.Text.Word

/-!
# Headers of struct definitions

What stands in front of a struct body: `Name struct {`, or with the keyword `type Name struct {`.
Which characters may part the words is left to the reader of the header: any blank in free text,
spaces and tabs where the header has to stay on its line.
-/

namespace FieldHint

/-- A header that has been read: the name, and the text behind its brace. -/
structure Header where
  name : Text
  rest : Text
  deriving DecidableEq, Repr

namespace Header

/-- The keyword in front of a definition. -/
def typeKeyword : Text := ['t', 'y', 'p', 'e']

/-- The keyword in front of a struct body. -/
def structKeyword : Text := ['s', 't', 'r', 'u', 'c', 't']

/-- What follows a gap of at least one blank. -/
def gap? (blank : Char → Bool) : Text → Option Text
  | [] => none
  | c :: t => if blank c then some (t.dropWhile blank) else none

/-- What follows an opening brace. -/
def brace? : Text → Option Text
  | '{' :: t => some t
  | _ => none

/-- A header without the keyword `type`, at the start of a text. -/
def summary? (blank : Char → Bool) (t : Text) : Option Header := do
  let name ← Text.nonempty? (t.takeWhile Text.isWord)
  let rest ← gap? blank (t.dropWhile Text.isWord)
  let rest ← Text.after? structKeyword rest
  let rest ← brace? (rest.dropWhile blank)
  return ⟨name, rest⟩

/-- A header with the keyword `type`, at the start of a text. -/
def definition? (blank : Char → Bool) (t : Text) : Option Header := do
  let rest ← Text.after? typeKeyword t
  let rest ← gap? blank rest
  summary? blank rest

/-- The text between the braces, if the header's brace is closed. -/
def body? (h : Header) : Option Text := (Brace.bodyEnd? h.rest).map h.rest.take

end Header

/-- A named struct body, cut out of a text. -/
structure NamedBody where
  name : Text
  body : Text
  deriving DecidableEq, Repr

namespace NamedBody

/-- The body behind a header. -/
def ofHeader? (h : Header) : Option NamedBody := h.body?.map (⟨h.name, ·⟩)

/-- The first definition whose brace is closed. It does not start inside a word. -/
def firstDefinition? : (insideWord : Bool) → Text → Option NamedBody
  | _, [] => none
  | insideWord, c :: t =>
    match if insideWord then none
      else (Header.definition? Text.isBlank (c :: t)).bind ofHeader? with
    | some found => some found
    | none => firstDefinition? (Text.isWord c) t

/-- The first header without a keyword whose brace is closed. -/
def firstSummary? : Text → Option NamedBody
  | [] => none
  | c :: t =>
    match (Header.summary? Text.isBlank (c :: t)).bind ofHeader? with
    | some found => some found
    | none => firstSummary? t

/-- The first struct body of a text. Definitions win over headers without a keyword, wherever
they stand. -/
def find? (text : Text) : Option NamedBody :=
  match firstDefinition? false text with
  | some found => some found
  | none => firstSummary? text

end NamedBody

end FieldHint
