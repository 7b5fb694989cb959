import FieldHint.CommandLine.Usage
import FieldHint.Text.Decimal

/-!
# Arguments one by one

Each argument is an operand or a switch, which may be shortened as long as it is clear which one
is meant. An argument with a dash that is no switch is an operand if it is a negative number or
holds a space.
-/

namespace FieldHint.CommandLine

/-- An argument read on its own. `-h` may carry more letters, also behind an equals sign. -/
inductive Token
  | operand (argument : Text)
  | dashes
  | switch (switch : Switch) (value : Option Text)
  | shortHelp (letters : Option Text)
  | unknown (argument : Text)
  deriving DecidableEq, Repr

/-- Two dashes: what follows is no switch. -/
def dashes : Text := ['-', '-']

/-- Whether the text is a negative number, with or without a fraction. A line break may end it. -/
def isNegativeNumber (t : Text) : Bool :=
  match t with
  | '-' :: t =>
    let whole := t.takeWhile Text.isDecimal
    let endsNumber (rest : Text) : Bool := rest.isEmpty || rest = ['\n']
    match t.dropWhile Text.isDecimal with
    | '.' :: t =>
      !(t.takeWhile Text.isDecimal).isEmpty && endsNumber (t.dropWhile Text.isDecimal)
    | rest => !whole.isEmpty && endsNumber rest
  | _ => false

/-- The value behind an equals sign. -/
def attachedValue? (argument : Text) : Option Text :=
  match argument.dropWhile (· ≠ '=') with
  | [] => none
  | _ :: value => some value

/-- The switches that a name is short for. -/
def candidates (name : Text) : List Switch := Switch.all.filter fun s => name.isPrefixOf s.name

namespace Token

/-- An argument with a dash that names no switch: a negative number and anything with a space is
an operand. -/
def ofUnknown (argument : Text) : Token :=
  if isNegativeNumber argument || argument.contains ' ' then operand argument
  else unknown argument

/-- An argument other than the two dashes. -/
def ofArgument (argument : Text) : Except UsageError Token :=
  match argument with
  | '-' :: '-' :: _ =>
    match candidates (argument.takeWhile (· ≠ '=')) with
    | [] => .ok (ofUnknown argument)
    | [s] => .ok (switch s (attachedValue? argument))
    | several => .error (.ambiguous argument several)
  | ['-', 'h'] => .ok (shortHelp none)
  | '-' :: 'h' :: '=' :: letters => .ok (shortHelp (some letters))
  | '-' :: 'h' :: letters => .ok (shortHelp (some letters))
  | '-' :: _ :: _ => .ok (ofUnknown argument)
  | _ => .ok (operand argument)

/-- The arguments one by one. Behind two dashes there are only operands. -/
def ofArguments : List Text → Except UsageError (List Token)
  | [] => .ok []
  | argument :: arguments =>
    if argument = CommandLine.dashes then .ok (dashes :: arguments.map operand)
    else do
      let token ← ofArgument argument
      let tokens ← ofArguments arguments
      return token :: tokens

end Token

end FieldHint.CommandLine
