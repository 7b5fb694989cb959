import FieldHint.Cursor.Commas
import FieldHint.Text.Blank

/-!
# The literal around the cursor

From the cursor back to the innermost brace that is still open there, then to the type name in
front of it. The search for the brace counts every brace, also in strings and comments; the
count of commas after it knows strings.
-/

namespace FieldHint.Cursor

/-- The composite literal that holds the cursor. -/
structure Context where
  typeName : Text
  typeNameOffset : Nat
  activeField : Nat
  deriving DecidableEq, Repr

/-- What stands around the cursor: no open brace, a brace without a type name, or a literal. -/
inductive Site
  | outside
  | untyped (brace : Nat)
  | inside (context : Context)
  deriving DecidableEq, Repr

/-- The text before the innermost open brace. The text is given and returned last character
first; `closed` braces were met that their partners still have to make up for. -/
def beforeOpenBrace? : (closed : Nat) → (reversed : Text) → Option Text
  | _, [] => none
  | closed, c :: t =>
    if c = '}' then beforeOpenBrace? (closed + 1) t
    else if c = '{' then
      match closed with
      | 0 => some t
      | closed + 1 => beforeOpenBrace? closed t
    else beforeOpenBrace? closed t

/-- A character of an identifier. Only ASCII takes part. -/
def isIdentifierChar (c : Char) : Bool := c.isAlphanum || c = '_'

/-- What a type name starts with: a capital letter or the underscore. -/
def isTypeInitial (c : Char) : Bool := c.isUpper || c = '_'

/-- The type name that ends a text, blanks aside, and its offset. The text is given last
character first. A qualifier is left out: the name starts behind the last dot. -/
def typeName? (reversed : Text) : Option (Text × Nat) :=
  let rest := reversed.dropWhile Text.isBlank
  let name := (rest.takeWhile isIdentifierChar).reverse.dropWhile fun c => !isTypeInitial c
  if name.isEmpty then none else some (name, rest.length - name.length)

namespace Site

/-- What stands at the end of a text. -/
def atEnd (text : Text) : Site :=
  match beforeOpenBrace? 0 text.reverse with
  | none => outside
  | some reversed =>
    match typeName? reversed with
    | none => untyped reversed.length
    | some (name, start) => inside ⟨name, start, countCommas (text.drop (reversed.length + 1))⟩

/-- What stands around a cursor, which is moved into the text first. The text behind the cursor
has no say. -/
def around (text : Text) (cursor : Int) : Site := atEnd (text.take cursor.toNat)

/-- The literal, if there is one. -/
def context? : Site → Option Context
  | inside context => some context
  | _ => none

end Site

/-- The literal around a cursor. -/
def context? (text : Text) (cursor : Int) : Option Context := (Site.around text cursor).context?

end FieldHint.Cursor
