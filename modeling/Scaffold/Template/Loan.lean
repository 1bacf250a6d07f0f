/-
  Lists that are lent to templates.

  A template may take items out of a list that it is given from outside, or turn it around. Whoever
  else has the list sees what is left of it: the template itself under other names, the templates
  that it inserts, and those that are rendered after it. `Loans` tells what is left of each list by
  the positions that its items had at first. Items are never added; that is not in the language.

  A list is not changed while a loop runs through it; a template that tries to is refused.
-/
import Scaffold.Template.Value

namespace Scaffold.Template

/-- Positions of items, none of them twice. -/
abbrev Positions := { ps : List Nat // ps.Nodup }

namespace Positions

/-- The positions of all items. -/
def all (count : Nat) : Positions := ⟨List.range count, List.nodup_range⟩

/-- No positions. -/
def none : Positions := ⟨[], List.nodup_nil⟩

/-- The positions with the one in a place left out. -/
def erase (ps : Positions) (k : Nat) : Positions :=
  ⟨ps.1.eraseIdx k, ps.2.sublist (List.eraseIdx_sublist ps.1 k)⟩

/-- The positions from the last to the first. -/
def reverse (ps : Positions) : Positions :=
  ⟨ps.1.reverse, List.pairwise_reverse.2 (ps.2.imp Ne.symm)⟩

end Positions

/-- What has become of the lists that are lent: of those that have changed, the positions of what
    is left, and those that a loop runs through. -/
structure Loans where
  left : List (Spot × Positions)
  busy : List Spot

namespace Loans

/-- All lists are as they were. -/
def untouched : Loans := ⟨[], []⟩

/-- The positions of what is left of a list that has changed. -/
def positions? (l : Loans) (spot : Spot) : Option Positions :=
  (l.left.find? (·.1 == spot)).map (·.2)

/-- The positions of what is left of a list that had so many items. -/
def positions (l : Loans) (spot : Spot) (count : Nat) : Positions :=
  (l.positions? spot).getD (.all count)

/-- What is left of the items of a list. -/
def pick {α : Type} (l : Loans) (spot : Spot) (items : List α) : List α :=
  match l.positions? spot with
  | some ps => ps.1.filterMap fun i => items[i]?
  | none => items

/-- Leave the items at some positions of a list. -/
def put (spot : Spot) (ps : Positions) (l : Loans) : Loans :=
  { l with left := (spot, ps) :: l.left.filter (·.1 != spot) }

end Loans

namespace Value

/-- A value with what is left of it, if it is a list that is lent. -/
def look (l : Loans) : Value → Value
  | lent spot items => list (l.pick spot items)
  | v => v

mutual

/-- A value with what is left of the lists in it. -/
def lookThrough (l : Loans) : Value → Value
  | list items => list (lookThroughItems l items)
  | lent spot items => list (l.pick spot (lookThroughItems l items))
  | tuple items => tuple (lookThroughItems l items)
  | mapping entries => mapping (lookThroughEntries l entries)
  | view kind items => view kind (lookThroughItems l items)
  | v => v

/-- Items with what is left of the lists in them. -/
def lookThroughItems (l : Loans) : List Value → List Value
  | [] => []
  | v :: rest => lookThrough l v :: lookThroughItems l rest

/-- Entries with what is left of the lists in them. -/
def lookThroughEntries (l : Loans) : List (Value × Value) → List (Value × Value)
  | [] => []
  | (k, v) :: rest => (k, lookThrough l v) :: lookThroughEntries l rest

end

/-- The text of a value when it is printed, with what is left of the lists in it. -/
def shown (l : Loans) (v : Value) : Result Text := (v.lookThrough l).display

end Value

end Scaffold.Template
