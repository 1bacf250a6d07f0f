/-
  Grammars as data.

  A `Pattern` describes a piece of source by ordered choice; a grammar gives a pattern to each of
  its rules. `Pattern.run` reads a piece of source with a reader for the rules it mentions, and
  `Grammar.read` ties the knot with a bound on how deep rules may nest. What a pattern reads is a
  list of sibling trees. Comments are read with the lexeme that follows them, and a node never
  starts with a comment: those before its first lexeme become its elder siblings.
-/
import Scaffold.Source.Lexeme
import Scaffold.Source.SyntaxTree

namespace Scaffold.Source

/-- A place in the source: what is still to read, and the number of code points before it. -/
structure Cursor where
  rest : Text
  offset : Nat

namespace Cursor

/-- The place this many code points further on. -/
def advance (c : Cursor) (n : Nat) : Cursor :=
  ⟨c.rest.drop n, c.offset + n⟩

/-- The text from one place to a later one. -/
def textTo (c stop : Cursor) : Text :=
  c.rest.take (stop.offset - c.offset)

/-- Skip blanks. -/
def skipGap (c : Cursor) : Cursor :=
  c.advance (Text.countWhile isGap c.rest)

/-- Skip blanks and comments, at most `fuel` of the latter, and collect the comments. -/
def skipTrivia (fuel : Nat) (c : Cursor) : List SyntaxTree × Cursor :=
  let c := c.skipGap
  match fuel with
  | 0 => ([], c)
  | fuel + 1 =>
    match scanComment c.rest with
    | none => ([], c)
    | some n =>
      let (more, stop) := skipTrivia fuel (c.advance n)
      (.leaf .comment c.offset (c.rest.take n) :: more, stop)

/-- The end of a line where a piece of source may end, behind the comments before it. -/
def skipLineEnd (ending : Ending) (fuel : Nat) (c : Cursor) : Option (List SyntaxTree × Cursor) :=
  if endsLine ending c.rest then some ([], c)
  else
    match fuel with
    | 0 => none
    | fuel + 1 =>
      let c := c.skipGap
      match scanComment c.rest with
      | none => none
      | some n =>
        (skipLineEnd ending fuel (c.advance n)).map fun (more, stop) =>
          (.leaf .comment c.offset (c.rest.take n) :: more, stop)

end Cursor

/-- A reader of source: sibling trees and the place behind them. -/
abbrev Reader := Cursor → Option (List SyntaxTree × Cursor)

/-- A pattern over rules named by `R`. -/
inductive Pattern (R : Type) where
  /-- No source at all. -/
  | nothing
  /-- A lexeme after blanks and comments. -/
  | lexeme (kind : Kind) (scan : Scan)
  /-- A lexeme right here. -/
  | glued (kind : Kind) (scan : Scan)
  /-- What a rule describes. -/
  | rule (name : R)
  /-- One pattern and then another. -/
  | seq (first second : Pattern R)
  /-- The first of two patterns that matches. -/
  | alt (first second : Pattern R)
  /-- As many repetitions as match. -/
  | many (body : Pattern R)
  /-- The pattern must match here; nothing is read. -/
  | ahead (body : Pattern R)
  /-- The pattern must not match here; nothing is read. -/
  | absent (body : Pattern R)
  /-- A line end where a piece of source may end. -/
  | lineEnd (ending : Ending)
  /-- A node around what the pattern reads. -/
  | node (kind : Kind) (body : Pattern R)
  /-- What the pattern reads, comments apart, in a role. -/
  | labelled (role : Role) (body : Pattern R)
  /-- A node that may become the first child of a node that `step` reads behind it, once or, when
      `again` holds, any number of times; only nodes of an `allowed` kind grow. The node that grows
      takes the role. -/
  | grow (again : Bool) (allowed : Kind → Bool) (role : Option Role) (base step : Pattern R)

namespace Pattern

/-- Repeat a reader until it fails or stands still. -/
def repeatRead (read : Reader) : Nat → Cursor → List SyntaxTree × Cursor
  | 0, c => ([], c)
  | fuel + 1, c =>
    match read c with
    | none => ([], c)
    | some (trees, next) =>
      if next.offset == c.offset then ([], c)
      else
        let (more, stop) := repeatRead read fuel next
        (trees ++ more, stop)

/-- Comments and, behind them, one node. -/
def splitLast : List SyntaxTree → Option (List SyntaxTree × SyntaxTree)
  | [] => none
  | [t] => some ([], t)
  | t :: u :: rest => (splitLast (u :: rest)).map fun (before, last) => (t :: before, last)

/-- Let the node `t`, which started at `start`, become the first child of what `read` reads. -/
def growOnce (allowed : Kind → Bool) (role : Option Role) (read : Reader) (start : Cursor)
    (t : SyntaxTree) (c : Cursor) : Option (SyntaxTree × Cursor) :=
  if !allowed t.kind then none
  else
    match read c with
    | none => none
    | some (trees, stop) =>
      match splitLast trees with
      | none => none
      | some (comments, outer) =>
        let first := match role with
          | some r => t.withRole r
          | none => t
        some (.node outer.kind outer.role start.offset (start.textTo stop)
          (first :: comments ++ outer.children), stop)

/-- Grow a node as often as it can. -/
def growMany (allowed : Kind → Bool) (role : Option Role) (read : Reader) (start : Cursor) :
    Nat → SyntaxTree → Cursor → SyntaxTree × Cursor
  | 0, t, c => (t, c)
  | fuel + 1, t, c =>
    match growOnce allowed role read start t c with
    | none => (t, c)
    | some (grown, stop) => growMany allowed role read start fuel grown stop

/-- Read what a pattern describes. `call` reads rules, and `bound` limits repetitions; the number of
    code points of the source is always enough. -/
def run {R : Type} (bound : Nat) (call : R → Reader) : Pattern R → Reader
  | nothing, c => some ([], c)
  | lexeme kind scan, c =>
    let (comments, c) := c.skipTrivia bound
    match scan c.rest with
    | none => none
    | some n => some (comments ++ [.leaf kind c.offset (c.rest.take n)], c.advance n)
  | glued kind scan, c =>
    match scan c.rest with
    | none => none
    | some n => some ([.leaf kind c.offset (c.rest.take n)], c.advance n)
  | rule name, c => call name c
  | seq first second, c =>
    match run bound call first c with
    | none => none
    | some (left, next) =>
      match run bound call second next with
      | none => none
      | some (right, stop) => some (left ++ right, stop)
  | alt first second, c =>
    match run bound call first c with
    | some result => some result
    | none => run bound call second c
  | many body, c => some (repeatRead (run bound call body) bound c)
  | ahead body, c => (run bound call body c).map fun _ => ([], c)
  | absent body, c =>
    match run bound call body c with
    | some _ => none
    | none => some ([], c)
  | lineEnd ending, c => c.skipLineEnd ending bound
  | node kind body, c =>
    let (comments, start) := c.skipTrivia bound
    match run bound call body start with
    | none => none
    | some (children, stop) =>
      some (comments ++ [.node kind none start.offset (start.textTo stop) children], stop)
  | labelled role body, c =>
    (run bound call body c).map fun (trees, stop) =>
      (trees.map fun t => if t.kind == .comment then t else t.withRole role, stop)
  | grow again allowed role base step, c =>
    let (comments, start) := c.skipTrivia bound
    match run bound call base start with
    | none => none
    | some (trees, next) =>
      match splitLast trees with
      | none => none
      | some (before, t) =>
        let read := run bound call step
        let (grown, stop) :=
          growMany allowed role read start (if again then bound else 1) t next
        some (comments ++ before ++ [grown], stop)

end Pattern

/-- A pattern for each rule. -/
abbrev Grammar (R : Type) := R → Pattern R

/-- Read a rule of a grammar, with rules nested at most `depth` deep. -/
def Grammar.read {R : Type} (g : Grammar R) (bound : Nat) : Nat → R → Reader
  | 0, _ => fun _ => none
  | depth + 1, r => (g r).run bound (g.read bound depth)

end Scaffold.Source
