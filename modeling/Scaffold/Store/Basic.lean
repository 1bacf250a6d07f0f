/-
  The file store.

  A store holds directories and files, a working directory, and the time that changes are marked
  with. Paths are followed part by part: every part but the last has to be a directory, and `..`
  leads to the directory above. A failed operation leaves the store as it was, except that
  `makeDirs` keeps the directories it has made.
-/
import Scaffold.Failure.Basic
import Scaffold.Path
import Scaffold.Store.Entry
import Scaffold.Text.Order

namespace Scaffold

/-- A file store. -/
structure Store where
  /-- The topmost directory. -/
  top : Entry
  /-- The way to the working directory. -/
  base : Way
  /-- The time that changes are marked with. -/
  now : Int

namespace Store

/-- An empty working directory at a time. -/
def empty (now : Int) : Store where
  top := .dir [("work", .dir [] now)] now
  base := ["work"]
  now := now

/-! ## Finding entries -/

/-- The most bytes that a name may have. -/
def maxName : Nat := 255

/-- The most bytes that a written path may have. -/
def maxPath : Nat := 4095

/-- Follow the parts of a path from the end of a way. -/
def walk (top : Entry) (way : Way) : List String → Except FileProblem Way
  | [] => .ok way
  | p :: rest =>
    match top.get? way with
    | none => .error .notFound
    | some (.file _ _) => .error .notDirectory
    | some (.dir _ _) =>
      if p == ".." then walk top way.dropLast rest
      else if p.utf8ByteSize > maxName then .error .nameTooLong
      else walk top (way ++ [p]) rest

/-- Where a path starts. -/
def start (s : Store) (p : Path) : Way :=
  match p.root with
  | .relative => s.base
  | _ => []

/-- Whether a path holds the character with number zero. -/
def hasNul (p : Path) : Bool := p.parts.any fun part => part.toList.contains (Char.ofNat 0)

/-- Where a path leads; there may be no entry yet. -/
def locate (s : Store) (p : Path) : Except Failure Way :=
  if hasNul p then .error .nulInPath
  else if p.text.utf8ByteSize > maxPath then .error (.file .nameTooLong p.text)
  else
    match walk s.top (s.start p) p.parts with
    | .ok way => .ok way
    | .error problem => .error (.file problem p.text)

/-- The entry that a path leads to. -/
def stat (s : Store) (p : Path) : Except Failure Entry :=
  match s.locate p with
  | .error f => .error f
  | .ok way =>
    match s.top.get? way with
    | some e => .ok e
    | none => .error (.file .notFound p.text)

/-- Whether a path leads to an entry that satisfies a test. A path that leads nowhere does not; a
    path that cannot be followed because of a long name is a failure. -/
def holds (test : Entry → Bool) (s : Store) (p : Path) : Except Failure Bool :=
  match s.stat p with
  | .ok e => .ok (test e)
  | .error (.file .nameTooLong path) => .error (.file .nameTooLong path)
  | .error _ => .ok false

/-- Whether a path leads to an entry. -/
def contains (s : Store) (p : Path) : Except Failure Bool := holds (fun _ => true) s p

/-- Whether a path leads to a file. -/
def isFile (s : Store) (p : Path) : Except Failure Bool := holds Entry.isFile s p

/-- Whether a path leads to a directory. -/
def isDir (s : Store) (p : Path) : Except Failure Bool := holds Entry.isDir s p

/-- The bytes of a file. -/
def read (s : Store) (p : Path) : Except Failure (List UInt8) :=
  match s.stat p with
  | .error f => .error f
  | .ok (.file bytes _) => .ok bytes
  | .ok (.dir _ _) => .error (.file .isDirectory p.text)

/-- The entries of a directory; a path that leads to no directory has none. -/
def entries (s : Store) (p : Path) : List (String × Entry) :=
  match s.stat p with
  | .ok (.dir es _) => es
  | _ => []

/-! ## Changing entries -/

/-- The store with an entry put at the end of a way. -/
def place (s : Store) (way : Way) (e : Entry) : Store :=
  { s with top := Entry.put s.now e way s.top }

/-- Write a file with a time, replacing one that is there. -/
def writeAt (s : Store) (p : Path) (bytes : List UInt8) (time : Int) : Except Failure Store :=
  match s.locate p with
  | .error f => .error f
  | .ok way =>
    match s.top.get? way with
    | some (.dir _ _) => .error (.file .isDirectory p.text)
    | _ => .ok (s.place way (.file bytes time))

/-- Write a file now. -/
def write (s : Store) (p : Path) (bytes : List UInt8) : Except Failure Store :=
  s.writeAt p bytes s.now

/-- Make a directory where there is nothing yet. -/
def makeDir (s : Store) (p : Path) : Except Failure Store :=
  match s.locate p with
  | .error f => .error f
  | .ok way =>
    match s.top.get? way with
    | some _ => .error (.file .taken p.text)
    | none => .ok (s.place way (.dir [] s.now))

/-- What comes of a directory that could not be made: nothing is wrong if it is there. -/
def accept (s : Store) (p : Path) (f : Failure) : Except Failure Unit :=
  match f with
  | .file _ _ =>
    match s.isDir p with
    | .ok true => .ok ()
    | .ok false => .error f
    | .error g => .error g
  | f => .error f

/-- Make a directory, unless it is there. -/
def ensureDir (s : Store) (p : Path) : Except Failure Unit × Store :=
  match s.makeDir p with
  | .ok made => (.ok (), made)
  | .error (.file .notFound path) => (.error (.file .notFound path), s)
  | .error f => (s.accept p f, s)

/-- Make a directory and those above it, up to `above` of them, unless they are there. -/
def makeDirsFrom : Nat → Store → Path → Except Failure Unit × Store
  | 0, s, p => s.ensureDir p
  | above + 1, s, p =>
    match s.ensureDir p with
    | (.error (.file .notFound _), _) =>
      match makeDirsFrom above s p.parent with
      | (.error f, s) => (.error f, s)
      | (.ok _, s) => s.ensureDir p
    | r => r

/-- Make a directory and those above it, unless they are there. -/
def makeDirs (s : Store) (p : Path) : Except Failure Unit × Store :=
  makeDirsFrom p.parts.length s p

/-- Remove a file, if there is one. -/
def unlink (s : Store) (p : Path) : Except Failure Store :=
  match s.locate p with
  | .error (.file .notFound _) => .ok s
  | .error f => .error f
  | .ok way =>
    match s.top.get? way with
    | none => .ok s
    | some (.dir _ _) => .error (.file .isDirectory p.text)
    | some (.file _ _) => .ok { s with top := Entry.erase s.now way s.top }

/-- Remove a file, or a directory with everything in it. -/
def removeAll (s : Store) (p : Path) : Except Failure Store :=
  match s.locate p with
  | .error f => .error f
  | .ok way =>
    match s.top.get? way with
    | none => .error (.file .notFound p.text)
    | some _ => .ok { s with top := Entry.erase s.now way s.top }

/-- Set the time of the last change. -/
def touch (s : Store) (p : Path) (time : Int) : Except Failure Store :=
  match s.locate p with
  | .error f => .error f
  | .ok way =>
    match s.top.get? way with
    | none => .error (.file .notFound p.text)
    | some e => .ok (s.place way (e.withTime time))

/-! ## Listing -/

/-- Whether one path does not come after another, byte by byte. -/
def notAfter (a b : Way) : Bool :=
  !Text.precedesBy UInt8.toNat (Utf8.encodeString ("/".intercalate b))
    (Utf8.encodeString ("/".intercalate a))

/-- Everything below the working directory, ordered by path. -/
def listing (s : Store) : List (Way × Entry) :=
  match s.top.get? s.base with
  | some e => (e.descendants []).mergeSort fun a b => notAfter a.1 b.1
  | none => []

end Store

end Scaffold
