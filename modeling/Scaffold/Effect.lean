/-
  Effects: computations that use the file store, report what they do, and may fail.

  An effect that fails keeps the changes it has made to the store and the events it has reported.
-/
import Scaffold.Store.Basic

namespace Scaffold

/-- How important an event is. -/
inductive Level where
  | debug
  | info
  | warning
  deriving DecidableEq

/-- Something that an effect reports. -/
structure Event where
  level : Level
  message : String
  fields : List (String × Json)

/-- What effects change: the file store and the events reported so far, last first. -/
structure World where
  store : Store
  reported : List Event

namespace World

/-- The events reported so far. -/
def events (w : World) : List Event := w.reported.reverse

end World

/-- A computation in a world. -/
abbrev Effect (α : Type) := ExceptT Failure (StateM World) α

namespace Effect

/-- The result of an effect and the world after it. -/
def perform {α : Type} (t : Effect α) (w : World) : Except Failure α × World := t.run w

/-- Report an event. -/
def report (level : Level) (message : String) (fields : List (String × Json)) : Effect Unit :=
  modify fun w => { w with reported := ⟨level, message, fields⟩ :: w.reported }

/-- A result that does not need the world. -/
def ofResult {α : Type} : Except Failure α → Effect α
  | .ok a => pure a
  | .error f => throw f

/-- Look something up in the store. -/
def query {α : Type} (q : Store → Except Failure α) : Effect α := do
  ofResult (q (← get).store)

/-- Change the store, unless that fails. -/
def update (change : Store → Except Failure Store) : Effect Unit := do
  match change (← get).store with
  | .ok s => modify fun w => { w with store := s }
  | .error f => throw f

/-- Make a directory and those above it, unless they are there. -/
def makeDirs (p : Path) : Effect Unit := do
  let (result, s) := (← get).store.makeDirs p
  modify fun w => { w with store := s }
  ofResult result

/-- The bytes of a file. -/
def read (p : Path) : Effect (List UInt8) := query (·.read p)

/-- Write a file. -/
def write (p : Path) (bytes : List UInt8) : Effect Unit := update (·.write p bytes)

/-- Run an effect; its failure is a value. -/
def outcome {α : Type} (t : Effect α) : Effect (Except Failure α) := fun w =>
  let (r, w) := t.run w
  (.ok r, w)

end Effect

namespace Failure

/-- Whether a failure comes from an operation on a file. -/
def isFile : Failure → Bool
  | file _ _ => true
  | _ => false

end Failure

end Scaffold
