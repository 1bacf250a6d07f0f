/-
  Errors that refer to each other as causes.

  A graph holds errors by index; an error with a code may have any error as its cause, itself
  included. `chain` follows the causes until they end or repeat, and `report` writes an error with
  its causes.
-/
import Scaffold.Failure.Basic

namespace Scaffold

/-- An error of a graph. -/
inductive GraphError where
  | plain (error : PlainError)
  | coded (error : CodedError) (cause : Option Nat)

/-- Errors by index. -/
abbrev ErrorGraph := List GraphError

namespace ErrorGraph

/-- The cause of an error with a code. -/
def causeOf (g : ErrorGraph) (i : Nat) : Option Nat :=
  match g[i]? with
  | some (.coded _ cause) => cause
  | _ => none

/-- Make one error the cause of another. -/
def link (g : ErrorGraph) (i cause : Nat) : ErrorGraph :=
  g.modify i fun e =>
    match e with
    | .coded error _ => .coded error (some cause)
    | .plain error => .plain error

/-- Follow causes from `next` until they end or one of `seen` comes again; at most `fuel` steps. -/
def follow (g : ErrorGraph) : Nat → List Nat → Option Nat → List Nat
  | 0, seen, _ => seen
  | _ + 1, seen, none => seen
  | fuel + 1, seen, some i =>
    if seen.contains i then seen else follow g fuel (seen ++ [i]) (g.causeOf i)

/-- An error and its causes, outermost first, each once. -/
def chain (g : ErrorGraph) (i : Nat) : List Nat :=
  follow g (g.length + 1) [i] (g.causeOf i)

/-- The text of one error in a report, its cause apart. -/
def headline : GraphError → String
  | .plain e => "ERROR: " ++ e.text
  | .coded e _ => Failure.headline e

/-- The report of an error with its causes, at most `fuel` of them. -/
def reportWithin (g : ErrorGraph) : Nat → Nat → Option String
  | 0, _ => none
  | fuel + 1, i =>
    match g[i]? with
    | none => none
    | some e =>
      match g.causeOf i with
      | none => some (headline e)
      | some j => (reportWithin g fuel j).map fun r => headline e ++ Failure.causeMark ++ r

/-- The report of an error with its causes; absent when they never end. -/
def report (g : ErrorGraph) (i : Nat) : Option String :=
  reportWithin g (g.length + 1) i

end ErrorGraph

end Scaffold
