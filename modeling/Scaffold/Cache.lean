/-
  A specification kept in a file.

  The file is trusted only while it is strictly newer than the source that the specification was
  read from. Reading and writing are best effort: what goes wrong with files only means that there
  is no kept specification.
-/
import Scaffold.Specification.Check
import Scaffold.Effect

namespace Scaffold

/-- Where a specification is kept, and the source it was read from. -/
structure Cache where
  path : Path
  source : Path

namespace Cache

/-- Whether the kept specification is newer than its source. -/
def isFresh (c : Cache) : Effect Bool := do
  let kept ← Effect.outcome (Effect.query (·.stat c.path))
  match kept with
  | .error f => if f.isFile then return false else throw f
  | .ok kept =>
    match ← Effect.outcome (Effect.query (·.stat c.source)) with
    | .error f => if f.isFile then return false else throw f
    | .ok source => return kept.time > source.time

/-- What the events about a kept specification tell. -/
def fields (c : Cache) : List (String × Json) := [("cache", .str c.path.text)]

/-- The specification in the bytes of a file. -/
def ofFile (r : Except Failure (List UInt8)) : Option Specification :=
  match r with
  | .error _ => none
  | .ok bytes =>
    match Specification.ofBytes bytes with
    | .ok s => some s
    | .error _ => none

/-- The kept specification, if there is one that is newer than its source and can be read. -/
def load? (c : Cache) : Effect (Option Specification) := do
  if ← c.isFresh then
    match ofFile (← Effect.outcome (Effect.read c.path)) with
    | some s => return some s
    | none =>
      Effect.report .debug "Ignoring unreadable specification cache." c.fields
      return none
  else
    Effect.report .debug "Specification cache miss." c.fields
    return none

/-- Write a specification to the file, after making the directories above it. -/
def store (c : Cache) (s : Specification) : Effect Unit := do
  Effect.makeDirs c.path.parent
  match s.toText? with
  | none => throw .unwritable
  | some text => Effect.write c.path (Utf8.encodeString text)

/-- Run an effect; what goes wrong with files is only a warning. -/
def warning (c : Cache) (message : String) (t : Effect Unit) : Effect Unit := do
  match ← Effect.outcome t with
  | .ok _ => return
  | .error f => if f.isFile then Effect.report .warning message c.fields else throw f

/-- Keep a specification. -/
def save (c : Cache) (s : Specification) : Effect Unit :=
  c.warning "Failed to cache MCP specification." (c.store s)

/-- Remove the kept specification. -/
def invalidate (c : Cache) : Effect Unit :=
  c.warning "Failed to remove specification cache." (Effect.update (·.unlink c.path))

end Cache

end Scaffold
