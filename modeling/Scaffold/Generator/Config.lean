/-
  Which configurations a generation run accepts.

  The schema has to be a file, and the output directory has to be one that exists or can be made:
  the nearest path above it that leads to something has to lead to a directory.
-/
import Scaffold.Config
import Scaffold.Effect

namespace Scaffold.Generator

/-- A configuration as it is given: already checked, or as a JSON value. -/
inductive Request where
  | checked (c : Config)
  | raw (v : Json)

/-- The failure of a configuration. -/
def configFailure (message : String) (details : List (String × Json)) (cause : Option Failure) :
    Failure :=
  .ofArea .generator 1 message details cause

/-- The configuration that is given. -/
def Request.config : Request → Except Failure Config
  | checked c => .ok c
  | raw v =>
    match Config.ofJson v with
    | .ok c => .ok c
    | .error issues =>
      .error (configFailure "Invalid generator configuration" [] (some (.invalid issues)))

/-- The nearest path, going up at most `above` steps, that leads to something. -/
def nearestExisting (s : Store) : Nat → Path → Except Failure Path
  | 0, p => .ok p
  | above + 1, p =>
    match s.contains p with
    | .error f => .error f
    | .ok true => .ok p
    | .ok false => nearestExisting s above p.parent

/-- Whether a path leads to a directory or to nothing, the nearest path above it that leads to
    something leading to a directory. -/
def isUsableDir (s : Store) (p : Path) : Except Failure Bool :=
  match nearestExisting s p.parts.length p with
  | .error f => .error f
  | .ok q => s.isDir q

/-- The configuration that is given, if its paths can be used. -/
def accept (s : Store) (r : Request) : Except Failure Config :=
  match r.config with
  | .error f => .error f
  | .ok c =>
    match s.isFile c.schemaPath with
    | .error f => .error f
    | .ok false =>
      .error (configFailure "Schema file not found" [("path", .str c.schemaPath.text)] none)
    | .ok true =>
      match isUsableDir s c.outputDir with
      | .error f => .error f
      | .ok false =>
        .error (configFailure "Output directory is not writable" [("path", .str c.outputDir.text)]
          none)
      | .ok true => .ok c

end Scaffold.Generator
