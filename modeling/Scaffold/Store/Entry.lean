/-
  Files and directories as a tree of entries.

  `Entry.get?` finds an entry by its way from the top, `Entry.put` and `Entry.erase` change the
  entry at one place. A directory takes the time of the change when one of its entries appears or
  goes away.
-/

namespace Scaffold

/-- A file with its bytes, or a directory with its entries by name; both with the time of the last
    change. -/
inductive Entry where
  | file (bytes : List UInt8) (time : Int)
  | dir (entries : List (String × Entry)) (time : Int)
  deriving Inhabited

/-- Names of directories from the top down. -/
abbrev Way := List String

namespace Entry

/-- The time of the last change. -/
def time : Entry → Int
  | file _ t | dir _ t => t

/-- The entry with its time of the last change set. -/
def withTime (t : Int) : Entry → Entry
  | file bytes _ => file bytes t
  | dir entries _ => dir entries t

/-- Whether an entry is a file. -/
def isFile : Entry → Bool
  | file _ _ => true
  | dir _ _ => false

/-- Whether an entry is a directory. -/
def isDir (e : Entry) : Bool := !e.isFile

/-- The entry of a name among entries. -/
def find? (name : String) : List (String × Entry) → Option Entry
  | [] => none
  | (n, e) :: rest => if n == name then some e else find? name rest

/-- Put an entry under a name, in the place of the one that has it. -/
def insert (name : String) (new : Entry) : List (String × Entry) → List (String × Entry)
  | [] => [(name, new)]
  | (n, e) :: rest => if n == name then (n, new) :: rest else (n, e) :: insert name new rest

/-- Remove the entry of a name. -/
def remove (name : String) (entries : List (String × Entry)) : List (String × Entry) :=
  entries.filter fun e => e.1 != name

/-- The entry of a name in a directory. -/
def child? (e : Entry) (name : String) : Option Entry :=
  match e with
  | file _ _ => none
  | dir entries _ => find? name entries

/-- The entry at the end of a way. -/
def get? (e : Entry) : Way → Option Entry
  | [] => some e
  | name :: rest =>
    match e.child? name with
    | none => none
    | some c => c.get? rest

/-- Put an entry at the end of a way through directories. -/
def put (now : Int) (new : Entry) : Way → Entry → Entry
  | [], _ => new
  | name :: rest, dir entries time =>
    match rest, find? name entries with
    | [], none => dir (insert name new entries) now
    | rest, some c => dir (insert name (put now new rest c) entries) time
    | _ :: _, none => dir entries time
  | _ :: _, file bytes time => file bytes time

/-- Remove the entry at the end of a way. -/
def erase (now : Int) : Way → Entry → Entry
  | [name], dir entries _ => dir (remove name entries) now
  | name :: rest, dir entries time =>
    match find? name entries with
    | some c => dir (insert name (erase now rest c) entries) time
    | none => dir entries time
  | _, e => e

mutual

/-- The entries below an entry with their ways. -/
def descendants (way : Way) : Entry → List (Way × Entry)
  | file _ _ => []
  | dir entries _ => descendantsAll way entries

/-- Entries and what is below them, with their ways. -/
def descendantsAll (way : Way) : List (String × Entry) → List (Way × Entry)
  | [] => []
  | (name, e) :: rest =>
    (way ++ [name], e) :: (descendants (way ++ [name]) e ++ descendantsAll way rest)

end

end Entry

end Scaffold
