/-
  Paths.

  A path is written with slashes between its parts. Empty parts and parts `.` are dropped when a
  path is read, parts `..` are kept. Two slashes at the start are kept apart from one; more are
  one.
-/
import Scaffold.Text.Blank

namespace Scaffold

/-- Where a path starts. -/
inductive Root where
  /-- At the working directory. -/
  | relative
  | slash
  | doubleSlash
  deriving DecidableEq

/-- A path: its root and its parts. -/
structure Path where
  root : Root
  parts : List String
  deriving DecidableEq

namespace Path

/-- The pieces between slashes, where `piece` holds the reversed start of the first one. -/
def pieces (piece : List Char) : List Char → List (List Char)
  | [] => [piece.reverse]
  | c :: rest => if c == '/' then piece.reverse :: pieces [] rest else pieces (c :: piece) rest

/-- The parts of a written path. -/
def partsOf (cs : List Char) : List String :=
  ((pieces [] cs).filter fun p => !(p.isEmpty || p == ['.'])).map String.ofList

/-- The root of a written path. -/
def rootOf : List Char → Root
  | '/' :: '/' :: '/' :: _ => .slash
  | '/' :: '/' :: _ => .doubleSlash
  | '/' :: _ => .slash
  | _ => .relative

/-- Read a path. -/
def ofString (s : String) : Path :=
  ⟨rootOf s.toList, partsOf s.toList⟩

/-- What a path starts with when it is written. -/
def rootText : Root → String
  | .relative => ""
  | .slash => "/"
  | .doubleSlash => "//"

/-- Write a path. -/
def text (p : Path) : String :=
  match p.root, p.parts with
  | .relative, [] => "."
  | root, parts => rootText root ++ "/".intercalate parts

/-- A path below another, unless it starts at the root itself. -/
def join (p : Path) (s : String) : Path :=
  let q := ofString s
  match q.root with
  | .relative => ⟨p.root, p.parts ++ q.parts⟩
  | _ => q

/-- The path without its last part; a path without parts is its own parent. -/
def parent (p : Path) : Path :=
  ⟨p.root, p.parts.dropLast⟩

/-- Whether a path starts at the root. -/
def isAbsolute (p : Path) : Bool :=
  p.root != .relative

end Path

end Scaffold
