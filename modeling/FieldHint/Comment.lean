import FieldHint.Text.Basic

/-!
# Line comments
-/

namespace FieldHint.Comment

/-- What a line comment starts with. -/
def mark : Text := ['/', '/']

/-- Whether a line is a comment from its first character on. -/
def opens (line : Text) : Bool := mark.isPrefixOf line

/-- The line without its comment. -/
def cut (line : Text) : Text := Text.before mark line

end FieldHint.Comment
