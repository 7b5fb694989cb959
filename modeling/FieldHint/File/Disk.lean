import FieldHint.File.Path
import FieldHint.Text.Quoted
import FieldHint.Text.Utf8

/-!
# Reading files

Files are read as a whole and as text: strict UTF-8, in which every line break becomes a line
feed. What the program can reach is a function from paths, so that a run of it is a value.
-/

namespace FieldHint

/-- Why a file could not be read as text. -/
inductive ReadFailure
  | missing
  | denied
  | notDirectory
  | isDirectory
  | nameTooLong
  | undecodable (fault : Text.Utf8.Fault)
  deriving DecidableEq, Repr

/-- The failure in words. -/
def ReadFailure.message (path : Path) : ReadFailure → Text
  | missing => "[Errno 2] No such file or directory: ".toList ++ Text.quoted path.toText
  | denied => "[Errno 13] Permission denied: ".toList ++ Text.quoted path.toText
  | notDirectory => "[Errno 20] Not a directory: ".toList ++ Text.quoted path.toText
  | isDirectory => "[Errno 21] Is a directory: ".toList ++ Text.quoted path.toText
  | nameTooLong => "[Errno 36] File name too long: ".toList ++ Text.quoted path.toText
  | undecodable fault => fault.message

/-- The files in reach: the bytes at a path, or why there are none. -/
abbrev Disk := Path → Except ReadFailure Text.Bytes

/-- Bytes as text. -/
def Text.ofBytes (bytes : Text.Bytes) : Except ReadFailure Text :=
  match Text.Utf8.decode bytes with
  | .ok t => .ok (Text.unixLines t)
  | .error fault => .error (.undecodable fault)

/-- The text of the file at a path. -/
def Disk.read (disk : Disk) (path : Path) : Except ReadFailure Text :=
  (disk path).bind Text.ofBytes

end FieldHint
