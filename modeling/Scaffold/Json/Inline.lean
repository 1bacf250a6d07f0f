/-
  Values in running text: a string stands for itself, and inside lists and mappings it is quoted.
-/
import Scaffold.Json.Value
import Scaffold.Number.Shortest
import Scaffold.Text.Quoted

namespace Scaffold.Json

mutual

/-- A value as a part of a list or mapping. -/
def inlinePart : Json → String
  | .null => "None"
  | .bool true => "True"
  | .bool false => "False"
  | .int n => Number.intText n
  | .float x => Number.floatText x
  | .str s => Text.quotedString s
  | .arr items => "[" ++ inlineItems items ++ "]"
  | .obj members => "\x7b" ++ inlineMembers members ++ "\x7d"

/-- Items with commas between them. -/
def inlineItems : List Json → String
  | [] => ""
  | [v] => inlinePart v
  | v :: w :: rest => inlinePart v ++ ", " ++ inlineItems (w :: rest)

/-- Members with commas between them. -/
def inlineMembers : List (String × Json) → String
  | [] => ""
  | [(k, v)] => Text.quotedString k ++ ": " ++ inlinePart v
  | (k, v) :: m :: rest =>
    Text.quotedString k ++ ": " ++ inlinePart v ++ ", " ++ inlineMembers (m :: rest)

end

/-- A value in running text. -/
def inline : Json → String
  | .str s => s
  | v => inlinePart v

end Scaffold.Json
