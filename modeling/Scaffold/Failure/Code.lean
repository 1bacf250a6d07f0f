/-
  Errors with a stable code.

  A code is the name of its owner, a hyphen, the letter of its area and a number of at least three
  digits, as in `AXE-P004`. The parts can be read back from any code.
-/
import Scaffold.Json.Value
import Scaffold.Number.Decimal

namespace Scaffold

/-- The parts of the program that report errors. -/
inductive Area where
  | parser
  | commandLine
  | generator
  | mapper
  | specification
  | runtime
  deriving DecidableEq

namespace Area

/-- Who owns the codes of an area. -/
def owner : Area → String
  | specification | runtime => "MCP"
  | _ => "AXE"

/-- The letter of an area. -/
def letter : Area → Char
  | parser => 'P'
  | commandLine => 'C'
  | generator => 'G'
  | mapper => 'M'
  | specification => 'S'
  | runtime => 'R'

/-- The code of a number in an area. -/
def code (a : Area) (n : Int) : String :=
  String.ofList (a.owner.toList ++ '-' :: a.letter :: Number.zeroPadded 3 n)

end Area

/-- An error with a code, a message and perhaps details in order. -/
structure CodedError where
  code : String
  message : String
  details : Option (List (String × Json)) := none

namespace CodedError

/-- The error with a number in an area; empty details are no details. -/
def ofArea (a : Area) (n : Int) (message : String) (details : List (String × Json)) : CodedError :=
  ⟨a.code n, message, if details.isEmpty then none else some details⟩

/-- Why a code lacks a part. -/
inductive Gap where
  /-- It has no such place. -/
  | absent
  /-- What stands there is no number. -/
  | notNumber
  deriving DecidableEq

/-- What stands behind the first hyphen of a code. -/
def tail? (code : List Char) : Option (List Char) :=
  match code.dropWhile (· != '-') with
  | [] => none
  | _ :: rest => some rest

/-- The owner that a code names: all that stands before the first hyphen. -/
def owner (e : CodedError) : String :=
  String.ofList (e.code.toList.takeWhile (· != '-'))

/-- The letter that a code names. -/
def letter (e : CodedError) : Except Gap String :=
  match tail? e.code.toList with
  | some (c :: _) => .ok (String.singleton c)
  | _ => .error .absent

/-- The number that a code ends with. -/
def number (e : CodedError) : Except Gap Int :=
  match tail? e.code.toList with
  | none => .error .absent
  | some rest =>
    match Number.readInt rest.tail with
    | some n => .ok n
    | none => .error .notNumber

/-- Code and message in a line. -/
def line (e : CodedError) : String :=
  e.code ++ ": " ++ e.message

end CodedError

end Scaffold
