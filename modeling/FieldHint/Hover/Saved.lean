import FieldHint.Hover.Payload
import FieldHint.Json.Half

/-!
# Saved hover responses

A file with the answer of a language server: JSON, or the markdown itself. Markdown that opens
with a bracket or a brace is told from JSON by trying to read it.
-/

namespace FieldHint.Hover

/-- What a saved response is. -/
inductive Saved
  | blank
  | markdown (text : Text)
  | payload (value : Json)
  | notJson (text : Text) (error : Json.ReadError)

namespace Saved

/-- Whether the text could be JSON: it opens an object or an array. -/
def looksLikeJson (t : Text) : Bool := t.head? = some '{' || t.head? = some '['

/-- What a text is. JSON is read without the blanks around it. -/
def ofText (raw : Text) : Saved :=
  let stripped := Text.strip raw
  if stripped.isEmpty then blank
  else if looksLikeJson stripped then
    match Json.read stripped with
    | .ok value => payload value
    | .error error => notJson raw error
  else markdown raw

/-- The text with the stand-in for every half of a pair, if it is JSON. -/
def respell (raw : Text) : Text :=
  match ofText raw with
  | payload _ => Json.respell raw
  | _ => raw

/-- The description that the response holds. Markdown is kept as it is. -/
def text? : Saved → Option Text
  | blank => none
  | markdown t => some t
  | payload value => Hover.text? value
  | notJson t _ => some t

end Saved

end FieldHint.Hover
