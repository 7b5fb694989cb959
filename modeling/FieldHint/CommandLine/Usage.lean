import FieldHint.Text.Quoted
import FieldHint.Trace.Level

/-!
# Usage

The switches of the command line, the help on them, and what can be wrong with how they are used.
-/

namespace FieldHint.CommandLine

/-- A switch. -/
inductive Switch
  | help
  | offset
  | line
  | character
  | hover
  | json
  | logLevel
  deriving DecidableEq, Repr

namespace Switch

/-- All switches, in the order of the help. -/
def all : List Switch := [help, offset, line, character, hover, json, logLevel]

/-- The name of a switch. -/
def name : Switch → Text
  | help => "--help".toList
  | offset => "--offset".toList
  | line => "--line".toList
  | character => "--character".toList
  | hover => "--hover".toList
  | json => "--json".toList
  | logLevel => "--log-level".toList

/-- What a message calls a switch. -/
def title : Switch → Text
  | help => "-h/--help".toList
  | s => s.name

/-- Whether a value belongs to the switch. -/
def takesValue : Switch → Bool
  | help | json => false
  | _ => true

end Switch

/-- What is wrong with the use of the command line. -/
inductive UsageError
  | ambiguous (argument : Text) (candidates : List Switch)
  | noValue (switch : Switch)
  | ignoredValue (switch : Switch) (value : Text)
  | notInteger (switch : Switch) (value : Text)
  | noLevel (value : Text)
  | conflict (switch other : Switch)
  | noSource
  | noCursor
  | unrecognized (arguments : List Text)
  | characterWithoutLine
  deriving DecidableEq, Repr

namespace UsageError

/-- An error with a switch. -/
def aboutSwitch (s : Switch) (t : Text) : Text :=
  "argument ".toList ++ s.title ++ ": ".toList ++ t

/-- The error in words. -/
def message : UsageError → Text
  | ambiguous argument candidates =>
    "ambiguous option: ".toList ++ argument ++ " could match ".toList ++
      Text.join [',', ' '] (candidates.map Switch.name)
  | noValue s => aboutSwitch s "expected one argument".toList
  | ignoredValue s value =>
    aboutSwitch s ("ignored explicit argument ".toList ++ Text.quoted value)
  | notInteger s value => aboutSwitch s ("invalid int value: ".toList ++ Text.quoted value)
  | noLevel value =>
    aboutSwitch .logLevel ("invalid choice: ".toList ++ Text.quoted value ++
      " (choose from ".toList ++
      Text.join [',', ' '] (Level.all.map fun l => Text.quoted l.name) ++ [')'])
  | conflict s other => aboutSwitch s ("not allowed with argument ".toList ++ other.title)
  | noSource => "the following arguments are required: source".toList
  | noCursor => "one of the arguments --offset --line is required".toList
  | unrecognized arguments => "unrecognized arguments: ".toList ++ Text.join [' '] arguments
  | characterWithoutLine => "--character requires --line".toList

end UsageError

/-- How the program is called. -/
def usage : Text :=
  ("usage: struct_help.py [-h] (--offset OFFSET | --line LINE)\n" ++
   "                      [--character CHARACTER] [--hover HOVER] [--json]\n" ++
   "                      [--log-level \x7bDEBUG,INFO,WARNING,ERROR,CRITICAL\x7d]\n" ++
   "                      source\n").toList

/-- The help on the program, where messages from a level on are shown. -/
def help (level : Level) : Text :=
  usage ++
  ("\nShow the fields of the struct literal under the cursor.\n" ++
   "\npositional arguments:\n" ++
   "  source                Go source file\n" ++
   "\noptions:\n" ++
   "  -h, --help            show this help message and exit\n" ++
   "  --offset OFFSET       zero-based character offset of the cursor\n" ++
   "  --line LINE           zero-based cursor line (use with --character)\n" ++
   "  --character CHARACTER\n" ++
   "                        zero-based cursor column, only with --line (default:\n" ++
   "                        0)\n" ++
   "  --hover HOVER         saved hover response (LSP JSON or markdown) describing\n" ++
   "                        the type\n" ++
   "  --json                print LSP-shaped JSON\n" ++
   "  --log-level \x7bDEBUG,INFO,WARNING,ERROR,CRITICAL\x7d\n" ++
   "                        logging level (default: ").toList ++
  level.name ++
  (", env\n" ++
   "                        STRUCT_HELP_LOG_LEVEL)\n").toList

/-- What is printed about an error in the use of the program. -/
def UsageError.report (e : UsageError) : Text :=
  usage ++ "struct_help.py: error: ".toList ++ e.message ++ ['\n']

end FieldHint.CommandLine
