/-
  Reading a specification from a source file, or from where it is kept.
-/
import Scaffold.Cache
import Scaffold.Contract.Reading

namespace Scaffold.Contract

/-- The failure of reading a file. -/
def unreadable (path : Path) (cause : Failure) : Failure :=
  .ofArea .parser 1 "Failed to read MCP specification source" [("path", .str path.text)]
    (some cause)

/-- The bytes of a source file, which have to be UTF-8. -/
def sourceBytes (path : Path) : Effect (List UInt8) := do
  match ← Effect.outcome (Effect.read path) with
  | .error f => if f.isFile then throw (unreadable path f) else throw f
  | .ok bytes =>
    match Utf8.decode bytes with
    | .error fault => throw (unreadable path (.undecodable fault))
    | .ok _ => return bytes

/-- Report the types that were left out and the size of what was read. -/
def reportReading (path : Path) (o : Outcome) : Effect Unit := do
  for name in o.emptyTypes do
    Effect.report .debug "Skipping type without fields." [("type", .str name)]
  match o.result with
  | .ok s =>
    Effect.report .debug "Parsed specification."
      [("source", .str path.text), ("operations", .int s.operations.length),
       ("types", .int s.types.length), ("capabilities", .int s.capabilities.length)]
  | .error _ => return

/-- Read the specification of a source file. -/
def readPath (path : Path) (c : Conventions) : Effect Specification := do
  let bytes ← sourceBytes path
  let o := readSource path.text c bytes
  reportReading path o
  Effect.ofResult o.result

/-- The specification of a source file: the kept one if it is newer, else the one in the source,
    which is then kept. -/
def load (path : Path) (c : Conventions) (cache : Option Cache) : Effect Specification := do
  match cache with
  | none => readPath path c
  | some cache =>
    match ← cache.load? with
    | some s =>
      Effect.report .debug "Loaded specification from cache." [("source", .str path.text)]
      return s
    | none =>
      let s ← readPath path c
      cache.save s
      return s

end Scaffold.Contract
