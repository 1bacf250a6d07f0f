/-
  Descriptions in comments.

  A comment that opens with `/**` right before a declaration describes it: its lines without the
  stars before them, up to the first tag.
-/
import Scaffold.Source.SyntaxTree
import Scaffold.Text.Alphanumeric
import Scaffold.Text.Blank

namespace Scaffold.Contract

open Source

/-- Whether a line is a tag: an at sign and a character of a word. -/
def isTag : List Char → Bool
  | '@' :: c :: _ => Text.isWord c
  | _ => false

/-- A line without the blanks around it and the star before it. -/
def docLine (line : List Char) : List Char :=
  match Text.trim line with
  | '*' :: rest => Text.trim rest
  | rest => rest

/-- What stands between the marks of a comment. -/
def docBody (raw : List Char) : List Char :=
  let inner := raw.drop 3
  if ['/', '*'].isPrefixOf raw.reverse then inner.take (raw.length - 5) else inner

/-- The description in the text of a comment, if it has one. -/
def docText (raw : List Char) : Option String :=
  if ['/', '*', '*'].isPrefixOf raw then
    let lines := ((Text.lines (docBody raw)).map docLine).takeWhile (!isTag ·)
    let text := Text.trim (Text.joinWith ['\n'] lines)
    if text.isEmpty then none else some (String.ofList text)
  else none

/-- The description in the sibling right before a node. -/
def docOf (previous : Option SyntaxTree) : Except Utf8.Fault (Option String) :=
  match previous with
  | some t =>
    if t.kind == .comment then t.spelling.map fun s => docText s.toList else .ok none
  | none => .ok none

/-- Each tree with its elder sibling. -/
def withPrevious (previous : Option SyntaxTree) :
    List SyntaxTree → List (Option SyntaxTree × SyntaxTree)
  | [] => []
  | t :: rest => (previous, t) :: withPrevious (some t) rest

end Scaffold.Contract
