/-
  Templates by name, and what is kept of them from one rendering to the next.

  A template that was read is kept on a shelf for as long as its source stays the same. With it is
  kept the text that it prints when no names are given to it, once that text has been needed. Such a
  text is not made anew, even where the templates that it was made of are others by now.
-/
import Scaffold.Template.Check

namespace Scaffold.Template

/-- The sources of templates by name. -/
abbrev Library := List (String × List Char)

namespace Library

/-- The source of the template of a name. -/
def source? (lib : Library) (name : String) : Option (List Char) :=
  (lib.find? (·.1 == name)).map (·.2)

/-- The template of a name. -/
def load (lib : Library) (name : String) : Result Template :=
  match lib.find? (·.1 == name) with
  | some (_, source) => Template.compile name source
  | none => .error .notFound

end Library

/-- A template that was read: its source and, once it has been needed, the text that it prints
    without names. -/
structure Held where
  source : List Char
  text : Option Text

/-- The templates that were read by name, the one used last first. -/
abbrev Shelf := List (String × Held)

namespace Shelf

/-- The most templates that a shelf has room for. -/
def room : Nat := 400

/-- What is kept under a name. -/
def find? (shelf : Shelf) (name : String) : Option Held :=
  (List.find? (·.1 == name) shelf).map (·.2)

/-- Put a template first, in the place of the one of its name. The one that was not used for the
    longest time makes room for it. -/
def put (name : String) (h : Held) (shelf : Shelf) : Shelf :=
  ((name, h) :: shelf.filter (·.1 != name)).take room

/-- Look for a template that cannot be read. -/
def touch (name : String) (shelf : Shelf) : Shelf :=
  match shelf.find? name with
  | some h => shelf.put name h
  | none => shelf

/-- Read a template from its source. What was kept of another source goes. -/
def renew (name : String) (source : List Char) (shelf : Shelf) : Shelf :=
  match shelf.find? name with
  | some h => shelf.put name (if h.source = source then h else ⟨source, none⟩)
  | none => shelf.put name ⟨source, none⟩

/-- The text that is kept of the template with this source. -/
def text? (name : String) (source : List Char) (shelf : Shelf) : Option Text :=
  match shelf.find? name with
  | some h => if h.source = source then h.text else none
  | none => none

/-- Keep the text of the template with this source, if that is on the shelf. -/
def note (name : String) (source : List Char) (text : Text) (shelf : Shelf) : Shelf :=
  shelf.map fun e => if e.1 = name ∧ e.2.source = source then (name, ⟨source, some text⟩) else e

end Shelf

end Scaffold.Template
