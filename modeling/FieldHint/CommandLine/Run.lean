import FieldHint.CommandLine.Request
import FieldHint.CommandLine.Settings
import FieldHint.Help.Report
import FieldHint.Trace.Search

/-!
# A run of the program

From a disk, an environment and arguments to what is printed and the exit status: 0 with a report,
1 if there is no literal at the cursor or no description of its type, or if a switch turns out to
be empty when its value is needed or a report would show half a pair, 2 on errors in the use of the
program and in its input.

What is printed is a text here, not its bytes: it is written as UTF-8, which has no bytes for half a
pair and has them for every character. Three things are left out. A stream with another encoding
refuses more reports or fewer, a limit on nested calls ends a run on JSON that is nested too deep to
be read, and arguments and environment may hold bytes that are no text.

A hover file may hold halves of pairs. Everything is found in it twice, with the one stand-in and
with the other; reports for programs and messages, in which a half is an escape, are restored from
the two.
-/

namespace FieldHint.CommandLine

/-- What a run leaves behind. -/
structure Outcome where
  exit : Nat
  stdout : Text := []
  stderr : Text := []
  deriving DecidableEq, Repr

/-- Why a run ends without a report. -/
inductive Failure
  | unreadableSource (path : Path) (failure : ReadFailure)
  | outOfRange (offset : Int) (path : Path) (length : Nat)
  | noLiteral
  | noDescription (typeName : Text)
  | emptySwitch (switch : Switch)
  | halfPair
  deriving DecidableEq, Repr

namespace Failure

/-- The failure in words. The first four are the words of the program. For an empty switch and for
half a pair it has none: an error that nothing catches ends the run there, with status 1 and a
trace of the calls, and the line here stands for that trace. -/
def message : Failure → Text
  | unreadableSource path failure =>
    "error: cannot read ".toList ++ path.toText ++ ": ".toList ++ failure.message path
  | outOfRange offset path length =>
    "error: offset ".toList ++ Text.ofInt offset ++ " is outside ".toList ++ path.toText ++
      " (0..".toList ++ Text.ofNat length ++ [')']
  | noLiteral => "no struct literal at cursor".toList
  | noDescription typeName => "no description for ".toList ++ typeName
  | emptySwitch s => "error: no value for ".toList ++ s.name
  | halfPair => "error: half a pair cannot be written".toList

/-- The exit status. -/
def exit : Failure → Nat
  | unreadableSource _ _ | outOfRange _ _ _ => 2
  | noLiteral | noDescription _ | emptySwitch _ | halfPair => 1

end Failure

/-- The offset of the cursor in a text. Only an offset can lie outside of it. -/
def CursorPlace.toOffset (text : Text) (source : Path) : CursorPlace → Except Failure Int
  | offset n =>
    if n < 0 ∨ text.length < n then .error (.outOfRange n source text.length) else .ok n
  | position line character => .ok ((Position.clamped line character).toOffset text)
  | nowhere s => .error (.emptySwitch s)

/-- The provider that is asked: the hover file if there is one, else the source itself. -/
def Request.provider (r : Request) (disk : Disk) (language : Text) : Except Failure Provider :=
  match r.hover with
  | .value path => .ok (.hoverFile path (disk.read path))
  | .unset => .ok (.document language)
  | .empty => .error (.emptySwitch .hover)

/-- The events of asking a provider and of reading its description. -/
def describingEvents (language : Text) (p : Provider) (text : Text) (context : Cursor.Context) :
    List Event :=
  Trace.ofProvider p text context.typeName ++
    match p.description? text context with
    | some description => Trace.ofDescription language description
    | none => []

/-- The report on a struct in the form that is asked for. The other struct is the same but for the
stand-ins for halves of pairs. -/
def Request.report (r : Request) (text : Text) (s other : Struct) (context : Cursor.Context) :
    Text :=
  if r.json then
    Json.restore (Report.json text s context.focus) (Report.json text other context.focus)
  else Report.text s context.focus

/-- Whether the report is one for people that would show half a pair: it differs with the character
that stands in for one. -/
def Request.showsHalf (r : Request) (p : Provider) (language text : Text)
    (context : Cursor.Context) : Bool :=
  let report (p : Provider) := (p.struct? language text context).map (Report.text · context.focus)
  !r.json && report p.respelled ≠ report p

/-- The report of a request on a source that has been read. -/
def Request.answer (r : Request) (disk : Disk) (language text : Text) : Except Failure Text := do
  let offset ← r.cursor.toOffset text r.source
  match Cursor.context? text offset with
  | none => throw .noLiteral
  | some context =>
    let provider ← r.provider disk language
    match provider.struct? language text context with
    | none => throw (.noDescription context.typeName)
    | some s =>
      if r.showsHalf provider language text context then throw .halfPair
      let other := (provider.respelled.struct? language text context).getD s
      return r.report text s other context

/-- The events of answering a request on a source that has been read, if a provider can be had. -/
def Request.events (r : Request) (asked : Except Failure Provider) (language text : Text) :
    List Event :=
  match r.cursor.toOffset text r.source with
  | .error _ => []
  | .ok offset =>
    let site := Cursor.Site.around text offset
    Trace.ofSite site ++
      match site.context? with
      | none => []
      | some context =>
        .cursorInside offset context.typeName context.activeField ::
          match asked with
          | .error _ => []
          | .ok provider => describingEvents language provider text context

/-- The lines that are written about events, from a level on. -/
def log (level : Level) (events : List Event) : Text :=
  (events.filter fun e => level.rank ≤ e.level.rank).flatMap fun e =>
    e.level.name ++ [':', ' '] ++ e.message ++ ['\n']

/-- The messages about answering a request, from a level on. A row with half a pair in it is shown
with the escape of the half. -/
def Request.messages (r : Request) (disk : Disk) (language text : Text) (level : Level) : Text :=
  let asked := r.provider disk language
  Json.restore (log level (r.events asked language text))
    (log level (r.events (asked.map Provider.respelled) language text))

/-- The level from which on messages are shown: the one that is asked for, else the one set. -/
def Request.messageLevel (r : Request) (settings : Settings) : Except Failure Level :=
  match r.level with
  | .value level => .ok level
  | .unset => .ok settings.level
  | .empty => .error (.emptySwitch .logLevel)

/-- The source of a request as text. -/
def Request.readSource (r : Request) (disk : Disk) : Except Failure Text :=
  (disk.read r.source).mapError (.unreadableSource r.source)

/-- What a run leaves behind that ends in a report or a failure, messages written before. -/
def Outcome.ofResult (messages : Text) : Except Failure Text → Outcome
  | .ok report => ⟨0, report ++ ['\n'], messages⟩
  | .error failure => ⟨failure.exit, [], messages ++ failure.message ++ ['\n']⟩

/-- Carry out a request. -/
def Request.run (r : Request) (disk : Disk) (settings : Settings) : Outcome :=
  match r.messageLevel settings, r.readSource disk with
  | .error failure, _ | .ok _, .error failure => .ofResult [] (.error failure)
  | .ok level, .ok text =>
    .ofResult (r.messages disk settings.language text level)
      (r.answer disk settings.language text)

/-- Run the program. -/
def run (disk : Disk) (env : Environment) (arguments : List Text) : Outcome :=
  let settings := Settings.ofEnvironment env
  match Request.ofArguments arguments with
  | .error e => ⟨2, [], e.report⟩
  | .ok none => ⟨0, help settings.level, []⟩
  | .ok (some request) => request.run disk settings

end FieldHint.CommandLine
