/-
  JSON values. Members of an object keep their order, and whole numbers are told from fractions.
-/

namespace Scaffold

/-- A JSON value. -/
inductive Json where
  | null
  | bool (b : Bool)
  | int (n : Int)
  | float (x : Float)
  | str (s : String)
  | arr (items : List Json)
  | obj (members : List (String × Json))
  deriving Inhabited

namespace Json

/-- The value of the last member with a name, if the value is an object that has one. -/
def find? (name : String) : List (String × Json) → Option Json
  | [] => none
  | (k, v) :: rest =>
    match find? name rest with
    | some w => some w
    | none => if k == name then some v else none

end Json

end Scaffold
