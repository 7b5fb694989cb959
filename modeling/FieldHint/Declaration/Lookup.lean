import FieldHint.Comment
import FieldHint.Declaration.Group
import FieldHint.Description.Fence

/-!
# Looking up a declaration

All declarations of a document, the comments above them, and a declaration by its name as
markdown that can be read as a description.
-/

namespace FieldHint.Declaration

/-- The declarations of a document: first those outside groups, then the members of each group,
also of a group that is opened inside another. -/
def all (document : Text) : List Declaration := ungrouped document ++ grouped document

/-- The comment lines that end a list of lines, in order and without their marks. -/
def commentBlock (lines : List Text) : List Text :=
  ((lines.reverse.map Text.strip).takeWhile Comment.opens).reverse.map
    fun line => Text.strip (line.drop Comment.mark.length)

/-- The comment block right above an offset. -/
def commentAbove (document : Text) (start : Nat) : Option Text :=
  (Text.strip (Text.join ['\n'] (commentBlock (Text.lines (document.take start))))).nonempty?

/-- The comment block right above the declaration. -/
def doc? (document : Text) (d : Declaration) : Option Text := commentAbove document d.start

/-- The first declaration of a name. -/
def find? (document name : Text) : Option Declaration := (all document).find? (·.name = name)

/-- A comment and a declaration as markdown. -/
def render (language : Text) (doc : Option Text) (code : Text) : Text :=
  match doc with
  | some doc => doc ++ ['\n', '\n'] ++ Fence.block language code
  | none => Fence.block language code

/-- The first declaration of a name as markdown. -/
def describe? (language document name : Text) : Option Text :=
  (find? document name).map fun d => render language (d.doc? document) d.code

end FieldHint.Declaration
