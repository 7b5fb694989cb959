import FieldHint.Description.Basic
import FieldHint.Text.Upper
import FieldHint.Trace.Level

/-!
# Settings

What the environment sets: whether to debug, the level of messages, and the language of the
blocks in descriptions.
-/

namespace FieldHint

/-- Names and values of environment variables. -/
abbrev Environment := List (Text × Text)

/-- What the environment sets. -/
structure Settings where
  debug : Bool := false
  level : Level := .warning
  language : Text := Struct.defaultLanguage
  deriving DecidableEq, Repr

namespace Settings

/-- The variable that turns debugging on. -/
def debugVariable : Text := "STRUCT_HELP_DEBUG".toList

/-- The variable with the level of messages. -/
def levelVariable : Text := "STRUCT_HELP_LOG_LEVEL".toList

/-- The variable with the language of blocks. -/
def languageVariable : Text := "STRUCT_HELP_FENCE_LANGUAGE".toList

/-- The words that turn debugging on, in any case. -/
def affirmatives : List Text := ["1".toList, "true".toList, "yes".toList]

/-- Whether a value turns debugging on. Only ASCII letters have an affirmative as lower case. -/
def isAffirmative (t : Text) : Bool := affirmatives.contains (t.map Char.toLower)

/-- The settings of an environment. Debugging sets the level as well; values that are no level
or are blank count as not set. -/
def ofEnvironment (env : Environment) : Settings :=
  let debug := ((env.lookup debugVariable).map isAffirmative).getD false
  let level? := (env.lookup levelVariable).bind fun t => Level.ofName? (Text.upper (Text.strip t))
  let language? := (env.lookup languageVariable).bind fun t => Text.nonempty? (Text.strip t)
  ⟨debug, if debug then .debug else level?.getD .warning,
    language?.getD Struct.defaultLanguage⟩

end Settings

end FieldHint
