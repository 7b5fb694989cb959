import FieldHint.Text.Blank

/-!
# Fenced blocks

A fenced block of markdown: a fence of three backticks with a language, lines of code, and a line
that starts with a fence again. Lines may end in CR LF.
-/

namespace FieldHint.Fence

/-- Three backticks. -/
def mark : Text := ['\x60', '\x60', '\x60']

/-- What follows a line break. -/
def lineBreak? : Text → Option Text
  | '\r' :: '\n' :: t => some t
  | '\n' :: t => some t
  | _ => none

/-- What follows a fence that opens a block of the language. The language is taken as it is. -/
def opening? (language t : Text) : Option Text := do
  let rest ← Text.after? (mark ++ language) t
  lineBreak? (rest.dropWhile Text.isSpacing)

/-- Whether the text starts with a line break and a closing fence. -/
def closes (t : Text) : Bool :=
  match lineBreak? t with
  | some rest => mark.isPrefixOf (rest.dropWhile Text.isSpacing)
  | none => false

/-- The text up to the first closing fence. -/
def interior? : Text → Option Text
  | [] => none
  | c :: t => if closes (c :: t) then some [] else (interior? t).map (c :: ·)

/-- The first closed block of the language: the text before it, and its code. -/
def find? (language : Text) : Text → Option (Text × Text)
  | [] => none
  | c :: t =>
    match (opening? language (c :: t)).bind interior? with
    | some code => some ([], code)
    | none => (find? language t).map fun (prose, code) => (c :: prose, code)

/-- The code as a block of the language. -/
def block (language code : Text) : Text := mark ++ language ++ ['\n'] ++ code ++ ['\n'] ++ mark

end FieldHint.Fence
