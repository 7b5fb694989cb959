import FieldHint.Text.Basic

/-!
# Paths

A path is a root and its parts. Empty parts and single dots mean nothing and are left out; two
dots stay, for what they lead to depends on the files.
-/

namespace FieldHint

/-- A path. The root is empty in a relative path. -/
structure Path where
  root : Text
  parts : List Text
  deriving DecidableEq, Repr

namespace Path

/-- The texts between the slashes. -/
def splitSlashes : Text → List Text
  | [] => [[]]
  | c :: t => if c = '/' then [] :: splitSlashes t else Text.consHead c (splitSlashes t)

/-- The root of a path: exactly two slashes are kept apart from any other number. -/
def rootOf (t : Text) : Text :=
  match (t.takeWhile (· = '/')).length with
  | 0 => []
  | 2 => ['/', '/']
  | _ => ['/']

/-- The path that a text names. -/
def ofText (t : Text) : Path :=
  ⟨rootOf t, (splitSlashes t).filter fun part => !part.isEmpty && part ≠ ['.']⟩

/-- The length of a text in UTF-8. -/
def byteLength (t : Text) : Nat := t.foldl (fun n c => n + c.utf8Size) 0

/-- The longest path that can be followed, in bytes. -/
def maxLength : Nat := 4095

/-- The longest name of a file, in bytes. -/
def maxPartLength : Nat := 255

/-- The path as a text. The empty path is shown as a dot. -/
def toText (p : Path) : Text :=
  if p.root.isEmpty && p.parts.isEmpty then ['.'] else p.root ++ Text.join ['/'] p.parts

end Path

end FieldHint
