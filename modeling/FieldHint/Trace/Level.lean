import FieldHint.Text.Basic

/-!
# Levels of messages
-/

namespace FieldHint

/-- How much a message matters, the least first. -/
inductive Level
  | debug
  | info
  | warning
  | error
  | critical
  deriving DecidableEq, Repr

namespace Level

/-- All levels, the least first. -/
def all : List Level := [debug, info, warning, error, critical]

/-- The name of a level. -/
def name : Level → Text
  | debug => "DEBUG".toList
  | info => "INFO".toList
  | warning => "WARNING".toList
  | error => "ERROR".toList
  | critical => "CRITICAL".toList

/-- The level with a name. -/
def ofName? (name : Text) : Option Level := all.find? (·.name = name)

/-- How many levels matter less. -/
def rank : Level → Nat
  | debug => 0
  | info => 1
  | warning => 2
  | error => 3
  | critical => 4

end Level

end FieldHint
