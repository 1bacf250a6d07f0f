/-
  Which templates may be rendered.

  A template is refused before it is rendered when it is malformed, when two of its blocks have one
  name, when a statement stands where it may not, or when it uses a filter or test that does not
  exist. Under a condition, an unknown filter or test is a mistake only when it is reached.
-/
import Scaffold.Template.Function
import Scaffold.Template.Parser

namespace Scaffold.Template

/-- The line of the first block whose name an earlier one has. -/
def repeatedBlock? (seen : List String) : List Block → Option Nat
  | [] => none
  | b :: rest => if seen.contains b.name then some b.line else repeatedBlock? (b.name :: seen) rest

/-- Whether a use makes a template unfit for rendering. -/
def Use.isMistake (u : Use) : Bool :=
  match u.kind with
  | .filter => !u.soft && !Value.filters.contains u.name
  | .test => !u.soft && !Value.tests.contains u.name
  | .misplaced => true
  | .load => false

/-- The line of the first mistake in a template that is well formed. -/
def mistake? (t : Template) : Option Nat :=
  match repeatedBlock? [] t.blocks with
  | some line => some line
  | none => (t.uses.find? Use.isMistake).map Use.line

/-- Read the template of a name that may be rendered. -/
def compile (name : String) (source : List Char) : Result Template :=
  match Template.read name source with
  | .error line => .error (.malformed line)
  | .ok t =>
    match t.mistake? with
    | some line => .error (.refused line)
    | none => .ok t

/-- Whether statements refer to a name, the bodies of blocks apart. -/
def mentions (name : String) (body : List Stmt) : Bool :=
  (usesBody false false body).any fun u => u.kind == .load && u.name == name

end Scaffold.Template
