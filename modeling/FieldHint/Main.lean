import FieldHint.CommandLine.Run

/-!
# The program

Reads the files that the arguments name, runs, and prints what the run leaves behind.
-/

namespace FieldHint.CommandLine

/-- What an error of the operating system says about a file. Some calls negate its number. -/
def failureOf : IO.Error → ReadFailure
  | .permissionDenied .. => .denied
  | .invalidArgument _ code _ =>
    if code = 36 ∨ code = 0 - 36 then .nameTooLong else .missing
  | .inappropriateType _ code _ =>
    if code = 20 ∨ code = 0 - 20 then .notDirectory else .isDirectory
  | _ => .missing

/-- The bytes at a path. -/
def fetch (path : Path) : IO (Path × Except ReadFailure Text.Bytes) := do
  try
    return (path, .ok (← IO.FS.readBinFile (String.ofList path.toText)).toList)
  catch error => return (path, .error (failureOf error))

/-- A disk that holds the files that the arguments name. -/
def fetchNamed (arguments : List Text) : IO Disk := do
  let paths := match Request.ofArguments arguments with
    | .ok (some request) => request.source :: request.hover.value?.toList
    | _ => []
  let fetched ← paths.mapM fetch
  return fun path => (fetched.lookup path).getD (.error .missing)

/-- The variables of the environment that are set. -/
def environment : IO Environment :=
  [Settings.debugVariable, Settings.levelVariable, Settings.languageVariable].filterMapM
    fun name => do return (← IO.getEnv (String.ofList name)).map fun value => (name, value.toList)

end FieldHint.CommandLine

/-- Run the program on its arguments. -/
def main (arguments : List String) : IO UInt32 := do
  let arguments := arguments.map String.toList
  let disk ← FieldHint.CommandLine.fetchNamed arguments
  let outcome := FieldHint.CommandLine.run disk (← FieldHint.CommandLine.environment) arguments
  IO.print (String.ofList outcome.stdout)
  IO.eprint (String.ofList outcome.stderr)
  return outcome.exit.toUInt32
