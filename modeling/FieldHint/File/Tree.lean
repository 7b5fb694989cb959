import FieldHint.File.Disk

/-!
# Trees of files

A disk that is given as a list of files and directories below a working directory. The directories
that lead to an entry exist as well. A path is followed part by part, as far as it can be: a file
on the way is no directory. Outside of the working directory, where two dots and absolute paths
lead, nothing is known but that there is a directory.
-/

namespace FieldHint

/-- What stands at a path. -/
inductive Entry
  | file (bytes : Text.Bytes)
  | directory

/-- Files and directories by their paths below the working directory. -/
abbrev FileTree := List (List Text × Entry)

namespace FileTree

/-- What stands below the working directory at the end of the given parts. -/
def entry? (tree : FileTree) (parts : List Text) : Option Entry :=
  match tree.lookup parts with
  | some entry => some entry
  | none =>
    if parts.isEmpty || tree.any fun (path, _) => parts.isPrefixOf path then some .directory
    else none

/-- Two dots: the part of a path that leads back to the directory above. -/
def parent : Text := ['.', '.']

/-- A directory: in the tree, or somewhere outside of it. -/
inductive Place
  | inside (parts : List Text)
  | outside
  deriving DecidableEq, Repr

namespace Place

/-- The directory above. The root has itself above it. -/
def above : Place → Place
  | inside [] => outside
  | inside (part :: parts) => inside (part :: parts).dropLast
  | outside => outside

/-- What has a name in a directory, and the place of it if it is a directory. -/
def entry? (tree : FileTree) (name : Text) : Place → Option (Entry × Place)
  | inside parts => (tree.entry? (parts ++ [name])).map (·, inside (parts ++ [name]))
  | outside => none

end Place

/-- Follow parts from a directory. -/
def follow (tree : FileTree) (place : Place) : List Text → Except ReadFailure Entry
  | [] => .ok .directory
  | part :: rest =>
    if part = parent then follow tree place.above rest
    else if Path.maxPartLength < Path.byteLength part then .error .nameTooLong
    else match place.entry? tree part with
      | none => .error .missing
      | some (.directory, place) => follow tree place rest
      | some (.file bytes, _) => if rest.isEmpty then .ok (.file bytes) else .error .notDirectory

/-- The tree as a disk. -/
def disk (tree : FileTree) : Disk := fun path =>
  if Path.maxLength < Path.byteLength path.toText then .error .nameTooLong
  else
    (follow tree (if path.root.isEmpty then .inside [] else .outside) path.parts).bind fun
      | .file bytes => .ok bytes
      | .directory => .error .isDirectory

end FileTree

end FieldHint
