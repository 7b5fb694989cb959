import FieldHint.Description.Fence
import FieldHint.Json.Basic

/-!
# Hover payloads

What a language server answers when the pointer rests on a name comes in many shapes: a response
around it, contents in it, marked strings, lists of them. The first text that is not blank is
what an editor shows.
-/

namespace FieldHint.Hover

/-- The key of a response around a payload. -/
def resultKey : Text := "result".toList

/-- The key of the contents of a payload. -/
def contentsKey : Text := "contents".toList

/-- The key of a marked text. -/
def valueKey : Text := "value".toList

/-- The key of the language of a marked text. -/
def languageKey : Text := "language".toList

/-- The text, unless it is blank. -/
def nonblank? (t : Text) : Option Text := if Text.isBlankText t then none else some t

/-- A marked text: code of a language goes into a block, anything else is markdown. -/
def marked? (members : List (Text × Json)) : Option Text :=
  match Json.member? members valueKey with
  | some (.string value) =>
    (nonblank? value).map fun value =>
      match Json.member? members languageKey with
      | some (.string language) =>
        if language.isEmpty then value else Fence.block language value
      | _ => value
  | _ => none

mutual

/-- The text of a payload. -/
def text? : Json → Option Text
  | .string t => nonblank? t
  | .array items => firstText? items
  | .object members =>
    match memberText? resultKey members with
    | some found => found
    | none =>
      match memberText? contentsKey members with
      | some found => found
      | none => marked? members
  | _ => none

/-- The first text of several payloads. -/
def firstText? : List Json → Option Text
  | [] => none
  | item :: items =>
    match text? item with
    | some t => some t
    | none => firstText? items

/-- The text of the member with a key, if there is such a member. -/
def memberText? (key : Text) : List (Text × Json) → Option (Option Text)
  | [] => none
  | (k, item) :: members =>
    match memberText? key members with
    | some found => some found
    | none => if k = key then some (text? item) else none

end

end FieldHint.Hover
