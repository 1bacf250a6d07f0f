/-
  Writing JSON text: two blanks of indentation for each level, one member or item a line, and
  empty arrays and objects closed at once.
-/
import Scaffold.Json.Value
import Scaffold.Number.Shortest
import Scaffold.Text.Quoted

namespace Scaffold.Json

/-- How a character is written inside a string. -/
def escapeChar (c : Char) : List Char :=
  if c == '"' then ['\\', '"']
  else if c == '\\' then ['\\', '\\']
  else if c.toNat == 8 then ['\\', 'b']
  else if c.toNat == 9 then ['\\', 't']
  else if c.toNat == 10 then ['\\', 'n']
  else if c.toNat == 12 then ['\\', 'f']
  else if c.toNat == 13 then ['\\', 'r']
  else if c.toNat < 32 then ['\\', 'u'] ++ Text.hexDigits 4 c.toNat
  else [c]

/-- A string between quotes. -/
def writeString (s : String) : List Char :=
  ['"'] ++ s.toList.flatMap escapeChar ++ ['"']

/-- A new line at a level of indentation. -/
def newLine (level : Nat) : List Char :=
  '\n' :: List.replicate (2 * level) ' '

mutual

/-- A value at a level of indentation. -/
def write (level : Nat) : Json → List Char
  | .null => "null".toList
  | .bool true => "true".toList
  | .bool false => "false".toList
  | .int n => Number.ofInt n
  | .float x => (Number.floatText x).toList
  | .str s => writeString s
  | .arr [] => ['[', ']']
  | .arr (v :: vs) =>
    ['['] ++ newLine (level + 1) ++ write (level + 1) v ++ writeItems (level + 1) vs ++
      newLine level ++ [']']
  | .obj [] => ['\x7b', '\x7d']
  | .obj ((k, v) :: ms) =>
    ['\x7b'] ++ newLine (level + 1) ++ writeString k ++ [':', ' '] ++ write (level + 1) v ++
      writeMembers (level + 1) ms ++ newLine level ++ ['\x7d']

/-- Further items of an array. -/
def writeItems (level : Nat) : List Json → List Char
  | [] => []
  | v :: vs => [','] ++ newLine level ++ write level v ++ writeItems level vs

/-- Further members of an object. -/
def writeMembers (level : Nat) : List (String × Json) → List Char
  | [] => []
  | (k, v) :: ms =>
    [','] ++ newLine level ++ writeString k ++ [':', ' '] ++ write level v ++ writeMembers level ms

end

/-- The text of a value. -/
def text (v : Json) : String :=
  String.ofList (write 0 v)

end Scaffold.Json
