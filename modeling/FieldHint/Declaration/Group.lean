import FieldHint.Comment
import FieldHint.Declaration.Basic
import FieldHint.Text.Blank

/-!
# Groups of declarations

Members of a group `type ( … )`. The scan goes from member to member: behind a struct or any
other braced member it goes on right behind the closing brace, else on the next line. It ends at
a line that starts with a closing parenthesis, or at a brace that is never closed.
-/

namespace FieldHint.Declaration

/-- Whether the text starts with a line that opens a group, and nothing else on it. -/
def opensGroup (t : Text) : Bool :=
  match Text.after? Header.typeKeyword (t.dropWhile Text.isSpacing) with
  | none => false
  | some rest =>
    match rest.dropWhile Text.isSpacing with
    | '(' :: rest => (Text.firstLine rest).all Text.isSpacing
    | _ => false

/-- One step through a group: it ends, the scan goes on behind the offset `last` of the text, or
a member is found that ends there. -/
inductive GroupStep
  | stop
  | skip (last : Nat)
  | member (declaration : Declaration) (last : Nat)
  deriving DecidableEq, Repr

/-- The next step at offset `start`, where the text stands. -/
def groupStep (start : Nat) (t : Text) : GroupStep :=
  let line := Text.firstLine t
  let code := Comment.cut line
  if (Text.strip code).head? = some ')' then .stop
  else
    match Header.summary? Text.isSpacing (t.dropWhile Text.isSpacing) with
    | some header =>
      match Brace.bodyEnd? header.rest with
      | none => .stop
      | some n =>
        let last := t.length - header.rest.length + n
        let indent := (t.takeWhile Text.isSpacing).length
        .member ⟨header.name, start, Header.typeKeyword ++ ' ' :: Text.slice t indent (last + 1),
          start + last⟩ last
    | none =>
      if '{' ∈ code then
        let brace := (code.takeWhile (· ≠ '{')).length
        match Brace.bodyEnd? (t.drop (brace + 1)) with
        | none => .stop
        | some n => .skip (brace + 1 + n)
      else .skip line.length

/-- The struct members of a group in a text at offset `start`, of which the first `rest` characters
still belong to the step before. -/
def membersBehind : (rest : Nat) → (start : Nat) → Text → List Declaration
  | _, _, [] => []
  | rest + 1, start, _ :: t => membersBehind rest (start + 1) t
  | 0, start, c :: t =>
    match groupStep start (c :: t) with
    | .stop => []
    | .skip last => membersBehind last (start + 1) t
    | .member declaration last => declaration :: membersBehind last (start + 1) t

/-- The struct members of a group, the text behind its opening line standing at `start`. -/
def members (start : Nat) (t : Text) : List Declaration := membersBehind 0 start t

/-- The declarations in groups. A group's members are read behind the line that opens it. -/
def grouped (document : Text) : List Declaration :=
  (Text.lineStarts document).flatMap fun (start, t) =>
    if opensGroup t then
      let line := Text.firstLine t
      members (start + line.length + 1) (t.drop (line.length + 1))
    else []

end FieldHint.Declaration
