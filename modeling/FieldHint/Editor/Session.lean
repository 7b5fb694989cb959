import FieldHint.Help.Provider
import FieldHint.Position
import FieldHint.Trace.Search

/-!
# Editing sessions

A text, a cursor in it and a provider. After every step the help at the cursor is asked for anew.
-/

namespace FieldHint.Editor

/-- The state of an editor. -/
structure Session where
  text : Text := []
  cursor : Nat := 0
  provider : Provider := .document Struct.defaultLanguage

/-- Something done in an editor. -/
inductive Step
  | type (inserted : Text)
  | backspace (count : Nat)
  | goto (offset : Int)
  | move (line character : Int)
  | provide (provider : Provider)

namespace Session

/-- The state after a step. Typing moves the cursor behind what is typed; other moves end inside
the text. -/
def step (s : Session) : Step → Session
  | .type inserted =>
    { s with
      text := s.text.take s.cursor ++ inserted ++ s.text.drop s.cursor
      cursor := s.cursor + inserted.length }
  | .backspace count =>
    { s with
      text := s.text.take (s.cursor - count) ++ s.text.drop s.cursor
      cursor := s.cursor - count }
  | .goto offset =>
    { s with cursor := (Position.ofOffset s.text offset).toOffset s.text }
  | .move line character =>
    { s with cursor := (Position.clamped line character).toOffset s.text }
  | .provide provider => { s with provider := provider }

/-- Where the cursor stands. -/
def position (s : Session) : Position := Position.ofOffset s.text s.cursor

/-- The literal around the cursor. -/
def context? (s : Session) : Option Cursor.Context := Cursor.context? s.text s.cursor

/-- The help at the cursor. -/
def help? (s : Session) : Option SignatureHelp :=
  SignatureHelp.at? Struct.defaultLanguage s.provider s.text s.cursor

/-- The events of asking for the literal around the cursor, and then for the help there. -/
def events (s : Session) : List Event :=
  Trace.ofSite (Cursor.Site.around s.text s.cursor) ++
    Trace.ofHelp Struct.defaultLanguage s.provider s.text s.cursor

/-- The states after each of several steps. -/
def states (s : Session) : List Step → List Session
  | [] => []
  | a :: steps => s.step a :: (s.step a).states steps

end Session

end FieldHint.Editor
