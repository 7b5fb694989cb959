import FieldHint.Body.Row
import FieldHint.File.Disk
import FieldHint.Json.Fault
import FieldHint.Trace.Level

/-!
# Events

What is worth telling about a search that found less than hoped for. An event is a cause; its
wording is a function of it.
-/

namespace FieldHint

/-- Which part of the search an event comes from. -/
inductive Topic
  | cursor
  | rows
  | descriptions
  | providers
  | help
  | commandLine
  deriving DecidableEq, Repr

/-- Something that happened during a search. -/
inductive Event
  | untypedBrace (brace : Nat)
  | skippedRow (line : Text) (reason : Skip)
  | noStruct (length : Nat)
  | undeclared (typeName : Text)
  | undescribed (typeName : Text)
  | hoverNotJson (path : Path) (error : Json.ReadError)
  | hoverUnreadable (path : Path) (failure : ReadFailure)
  | cursorInside (offset : Int) (typeName : Text) (activeField : Nat)
  deriving DecidableEq, Repr

namespace Event

/-- The part of the search. -/
def topic : Event → Topic
  | untypedBrace _ => .cursor
  | skippedRow _ _ => .rows
  | noStruct _ => .descriptions
  | undeclared _ | hoverNotJson _ _ | hoverUnreadable _ _ => .providers
  | undescribed _ => .help
  | cursorInside _ _ _ => .commandLine

/-- How much the event matters: a file that cannot be read is worth a warning. -/
def level : Event → Level
  | hoverUnreadable _ _ => .warning
  | _ => .debug

/-- The reason for skipping a row as one word. -/
def reasonWord : Skip → Text
  | .comment => "comment".toList
  | .embedded => "embedded".toList
  | .unrecognized => "unrecognized".toList

/-- The event in words. -/
def message : Event → Text
  | untypedBrace brace =>
    "Brace at ".toList ++ Text.ofNat brace ++ " is not preceded by a type name".toList
  | skippedRow line reason =>
    "Skipping ".toList ++ reasonWord reason ++ " field line ".toList ++ Text.quoted line
  | noStruct length =>
    "No struct definition in ".toList ++ Text.ofNat length ++ " chars of description".toList
  | undeclared typeName =>
    "No declaration of ".toList ++ typeName ++ " in the current document".toList
  | undescribed typeName => "No description available for ".toList ++ typeName
  | hoverNotJson path error =>
    "Reading hover file ".toList ++ path.toText ++ " as markdown: ".toList ++ error.message
  | hoverUnreadable path failure =>
    "Could not read hover file ".toList ++ path.toText ++ ": ".toList ++ failure.message path
  | cursorInside offset typeName activeField =>
    "Cursor ".toList ++ Text.ofInt offset ++ " is in a ".toList ++ typeName ++
      " literal, field ".toList ++ Text.ofNat activeField

end Event

end FieldHint
