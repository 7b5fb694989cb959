import FieldHint.CommandLine.Token
import FieldHint.File.Path
import FieldHint.Text.Integer
import FieldHint.Text.Upper

/-!
# Requests

What all arguments together ask for. Switches take the values behind them; the first operand that
is left names the source; what is left then is too much.

Two dashes are never a value. Attached to a switch they leave it empty, which is not the same as
leaving the switch out: an empty switch still excludes others, and a later value still fills it.
-/

namespace FieldHint.CommandLine

/-- What a switch holds. -/
inductive Slot (α : Type)
  | unset
  | empty
  | value (a : α)
  deriving DecidableEq, Repr

namespace Slot

/-- Whether the switch has been given, if only without a value. -/
def isSet : Slot α → Bool
  | unset => false
  | _ => true

/-- The value, if there is one. -/
def value? : Slot α → Option α
  | value a => some a
  | _ => none

/-- What a switch holds that is given a text. -/
def fill (read : Text → Except UsageError α) (t : Text) : Except UsageError (Slot α) :=
  if t = dashes then .ok empty else (read t).map value

end Slot

/-- What has been given so far. -/
structure Given where
  source : Option Text := none
  offset : Slot Int := .unset
  line : Slot Int := .unset
  character : Slot Int := .unset
  hover : Slot Path := .unset
  json : Bool := false
  level : Slot Level := .unset
  extras : List Text := []
  deriving DecidableEq, Repr

namespace Given

/-- Add an argument that nothing asks for. -/
def addExtra (g : Given) (argument : Text) : Given :=
  { g with extras := g.extras ++ [argument] }

/-- The integer that a switch is given. -/
def readInteger (s : Switch) (value : Text) : Except UsageError Int :=
  match Text.toInt? value with
  | some n => .ok n
  | none => .error (.notInteger s value)

/-- The level that a value names, in any case. -/
def readLevel (value : Text) : Except UsageError Level :=
  match Level.ofName? (Text.upper value) with
  | some level => .ok level
  | none => .error (.noLevel (Text.upper value))

/-- Give a value to a switch that takes one. The last value counts. -/
def setValue (g : Given) (s : Switch) (value : Text) : Except UsageError Given :=
  match s with
  | .offset => do
    let slot ← Slot.fill (readInteger s) value
    if g.line.isSet then throw (.conflict .offset .line)
    return { g with offset := slot }
  | .line => do
    let slot ← Slot.fill (readInteger s) value
    if g.offset.isSet then throw (.conflict .line .offset)
    return { g with line := slot }
  | .character => do
    let slot ← Slot.fill (readInteger s) value
    return { g with character := slot }
  | .hover => do
    let slot ← Slot.fill (fun t => .ok (Path.ofText t)) value
    return { g with hover := slot }
  | .logLevel => do
    let slot ← Slot.fill readLevel value
    return { g with level := slot }
  | .help | .json => .error (.ignoredValue s value)

/-- Whether the letters behind `-h` leave it a switch of its own: more of its kind may follow, a
value may not, not even an empty one. -/
def checkLetters (letters : Text) : Except UsageError Unit :=
  let rest := letters.dropWhile (· = 'h')
  if !letters.isEmpty && rest.isEmpty then .ok () else .error (.ignoredValue .help rest)

/-- Take the tokens in order. Nothing is returned if help is asked for before anything is wrong.
The source is the first operand that no switch takes; two dashes next to it go with it. -/
def take (g : Given) : List Token → Except UsageError (Option Given)
  | [] => .ok (some g)
  | .operand a :: .dashes :: tokens =>
    if g.source.isNone then take { g with source := some a } tokens
    else take ((g.addExtra a).addExtra dashes) tokens
  | .operand a :: tokens =>
    if g.source.isNone then take { g with source := some a } tokens
    else take (g.addExtra a) tokens
  | .dashes :: .operand a :: tokens =>
    if g.source.isNone then take { g with source := some a } tokens
    else take ((g.addExtra dashes).addExtra a) tokens
  | .dashes :: tokens => take (g.addExtra dashes) tokens
  | .unknown a :: tokens => take (g.addExtra a) tokens
  | .shortHelp none :: _ => .ok none
  | .shortHelp (some letters) :: _ => (checkLetters letters).map fun _ => none
  | .switch .help none :: _ => .ok none
  | .switch .json none :: tokens => take { g with json := true } tokens
  | .switch s (some value) :: tokens => do
    let g ← g.setValue s value
    take g tokens
  | .switch s none :: .operand value :: tokens => do
    let g ← g.setValue s value
    take g tokens
  | .switch s none :: _ => .error (.noValue s)

end Given

/-- Where the cursor is said to be, or the switch that ought to say it and is empty. -/
inductive CursorPlace
  | offset (offset : Int)
  | position (line character : Int)
  | nowhere (switch : Switch)
  deriving DecidableEq, Repr

/-- What the arguments ask for. -/
structure Request where
  source : Path
  cursor : CursorPlace
  hover : Slot Path := .unset
  json : Bool := false
  level : Slot Level := .unset
  deriving DecidableEq, Repr

namespace Request

/-- Where the cursor has been said to be. A line without a character means its start. -/
def cursor? (g : Given) : Option CursorPlace :=
  match g.offset, g.line with
  | .value offset, _ => some (.offset offset)
  | .empty, _ => some (.nowhere .offset)
  | .unset, .value line => some (.position line (g.character.value?.getD 0))
  | .unset, .empty => some (.nowhere .line)
  | .unset, .unset => none

/-- The request that has been given, if nothing is missing and nothing left over. -/
def ofGiven (g : Given) : Except UsageError Request := do
  let source ← match g.source with
    | some source => pure source
    | none => throw .noSource
  let cursor ← match cursor? g with
    | some cursor => pure cursor
    | none => throw .noCursor
  if !g.extras.isEmpty then throw (.unrecognized g.extras)
  if g.character.isSet && !g.line.isSet then throw .characterWithoutLine
  return ⟨Path.ofText source, cursor, g.hover, g.json, g.level⟩

/-- The request that the arguments make. Nothing is returned if they ask for help. -/
def ofArguments (arguments : List Text) : Except UsageError (Option Request) := do
  let tokens ← Token.ofArguments arguments
  match ← Given.take {} tokens with
  | none => return none
  | some g => return some (← ofGiven g)

end Request

end FieldHint.CommandLine
