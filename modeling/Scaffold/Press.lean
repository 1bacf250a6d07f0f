/-
  A press: templates that are loaded again and again, and rendered in between.

  A load that succeeds replaces all templates, one that fails none. What rendering keeps on the
  shelf outlasts a load. Rendering uses up luck, and tells what it has left of the lists that were
  lent to it.
-/
import Scaffold.Engine

namespace Scaffold

/-- The templates that were loaded last, what has been kept of all that were read, and what the
    draws to come will give. -/
structure Press where
  engine : Engine
  shelf : Option Template.Shelf
  luck : Template.Luck

namespace Press

/-- A press without templates. -/
def fresh (luck : Template.Luck) : Press := ⟨.empty, some [], luck⟩

/-- The names of the templates. -/
def names (p : Press) : List String := p.engine.names

/-- Load the templates of a directory in the place of those before. -/
def load (p : Press) (dir : Path) : Effect Press := do
  return { p with engine := ← Engine.load dir }

/-- What a press has done: its result, the press after it, and what is left of the lists that were
    lent to it. -/
structure Print where
  result : Except Failure Text
  press : Press
  loans : Template.Loans

/-- The desk that a press renders at. -/
def desk (p : Press) : Template.Desk := ⟨p.shelf, .untouched, p.luck⟩

/-- Render a template with the values of some names. -/
def render (p : Press) (name : String) (context : Template.Scope) : Print :=
  if p.engine.has name then
    let (r, d) := (p.engine.library.renderTo Template.maxDepth name context).perform p.desk
    ⟨r.mapError (Engine.unrendered name), { p with shelf := d.shelf, luck := d.luck }, d.loans⟩
  else ⟨.error (p.engine.unknown name), p, .untouched⟩

end Press

end Scaffold
