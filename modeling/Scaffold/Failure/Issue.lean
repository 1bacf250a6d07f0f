/-
  What is wrong with structured input, and where.
-/
import Scaffold.Text.Quoted

namespace Scaffold

/-- A step from a value into one of its parts. -/
inductive Step where
  | key (name : String)
  | index (n : Nat)
  deriving DecidableEq

/-- Where structured input comes from: JSON text, or a value in memory. -/
inductive Origin where
  | text
  | value
  deriving DecidableEq

/-- What is wrong with a part of structured input. -/
inductive Problem where
  /-- A part that must be there is not. -/
  | missing
  /-- A part that must not be there is. -/
  | extra
  | notString
  | emptyString
  | notBool
  /-- Text or a number that stands for no truth value. -/
  | unreadableBool
  | notList (origin : Origin)
  | notMapping
  /-- A record of this kind was expected. -/
  | notRecord (origin : Origin) (kind : String)
  | notPath
  /-- A framework that none of these is. -/
  | unknownFramework (name : String) (known : List String)
  /-- The text is no JSON. -/
  | notJson
  deriving DecidableEq

/-- A problem at a place. -/
structure Issue where
  place : List Step
  problem : Problem
  deriving DecidableEq

namespace Issue

/-- The same issue seen from one step further out. -/
def within (step : Step) (i : Issue) : Issue :=
  { i with place := step :: i.place }

end Issue

namespace Problem

/-- The short name of a kind of problem. -/
def label : Problem → String
  | missing => "missing"
  | extra => "extra_forbidden"
  | notString => "string_type"
  | emptyString => "string_too_short"
  | notBool => "bool_type"
  | unreadableBool => "bool_parsing"
  | notList _ => "tuple_type"
  | notMapping => "dict_type"
  | notRecord _ _ => "model_type"
  | notPath => "path_type"
  | unknownFramework _ _ => "value_error"
  | notJson => "json_invalid"

/-- A problem in words; a text that is no JSON has no fixed wording. -/
def message? : Problem → Option String
  | missing => some "Field required"
  | extra => some "Extra inputs are not permitted"
  | notString => some "Input should be a valid string"
  | emptyString => some "String should have at least 1 character"
  | notBool => some "Input should be a valid boolean"
  | unreadableBool => some "Input should be a valid boolean, unable to interpret input"
  | notList .text => some "Input should be a valid array"
  | notList .value => some "Input should be a valid tuple"
  | notMapping => some "Input should be a valid dictionary"
  | notRecord .text _ => some "Input should be an object"
  | notRecord .value kind => some ("Input should be a valid dictionary or instance of " ++ kind)
  | notPath => some "Input is not a valid path for <class 'pathlib.Path'>"
  | unknownFramework name known =>
    some ("Value error, unknown framework " ++ Text.quotedString name ++ "; expected one of [" ++
      ", ".intercalate (known.map Text.quotedString) ++ "]")
  | notJson => none

end Problem

/-- The result of a check: a value, or all that is wrong. -/
abbrev Checked (α : Type) := Except (List Issue) α

namespace Checked

/-- All that is wrong, nothing for a value. -/
def issues {α : Type} : Checked α → List Issue
  | .ok _ => []
  | .error is => is

/-- See the issues of a part from the whole. -/
def within {α : Type} (step : Step) : Checked α → Checked α
  | .ok a => .ok a
  | .error is => .error (is.map (Issue.within step))

/-- Check each item of a list, the first of which has this index. -/
def each {α β : Type} (check : α → Checked β) (index : Nat) : List α → Checked (List β)
  | [] => .ok []
  | a :: rest =>
    match within (.index index) (check a), each check (index + 1) rest with
    | .ok b, .ok bs => .ok (b :: bs)
    | x, xs => .error (issues x ++ issues xs)

end Checked

end Scaffold
