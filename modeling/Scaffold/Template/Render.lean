/-
  Rendering templates.

  `eval` computes the value of an expression, `exec` runs a statement and adds to the text printed
  so far, and `render` renders a template of a library with the values of some names.

  Names are looked up in the scopes of the loops, blocks and routines around, innermost first, then
  among what the template has set outside of all these, then among the names given from outside.

  A template that inherits from another prints nothing from there on itself: its blocks replace
  those of the other, which is rendered instead.

  The test of a loop is put to all its items before the first of them is run; a name of a loop that
  runs through itself again is not in the language.

  Templates may insert and routines may call each other without end; `fuel` bounds the depth.
-/
import Scaffold.Template.Desk

namespace Scaffold.Template

/-- The state of rendering. -/
structure State where
  /-- The names given from outside. -/
  context : Scope
  /-- The names set outside of loops, blocks and routines. -/
  vars : Scope
  /-- The scopes of the loops, blocks and routines around, innermost first. -/
  scopes : List Scope
  /-- The bodies of each block, the one that replaces the others first. -/
  blocks : List (String × List (List Stmt))
  /-- The template that this one inherits from. -/
  parent : Option Template
  /-- The block around and how often it was replaced. -/
  within : Option (String × Nat)
  /-- Whether what is printed belongs to the template outside of its blocks and routines. -/
  outer : Bool
  /-- The text that the expression of a statement may refer to. -/
  captured : Text
  /-- What has been printed, last first. -/
  out : List Text

namespace State

/-- The state before a template is rendered. -/
def initial (context : Scope) (t : Template) : State where
  context := context
  vars := []
  scopes := []
  blocks := t.blocks.map fun b => (b.name, [b.body])
  parent := none
  within := none
  outer := true
  captured := []
  out := []

/-- All that has been printed. -/
def printed (st : State) : Text := st.out.reverse.flatten

/-- Print a text. -/
def print (t : Text) (st : State) : State := { st with out := t :: st.out }

/-- Whether printing is left to the template inherited from. -/
def isSilent (st : State) : Bool := st.outer && st.parent.isSome

/-- The bodies of a block. -/
def bodies (st : State) (name : String) : List (List Stmt) :=
  ((st.blocks.find? (·.1 == name)).map (·.2)).getD []

/-- The block that the current one replaces. -/
def replaced (st : State) (name : String) (level : Nat) : Value :=
  if level + 1 < (st.bodies name).length then .block name (level + 1)
  else .missing ("there is no parent block called " ++ Text.quotedString name ++ ".")

/-- The value of a name. -/
def get (st : State) (name : String) : Value :=
  match st.scopes.findSome? (·.get? name) with
  | some v => v
  | none =>
    match st.within, name with
    | some (block, level), "super" => st.replaced block level
    | _, _ =>
      if name == "self" then .blocks
      else
        match st.vars.get? name with
        | some v => v
        | none =>
          match st.context.get? name with
          | some v => v
          | none =>
            if Value.builtins.contains name then .builtin name
            else .missing (Text.quotedString name ++ " is undefined")

/-- Give a name a value in the innermost scope. -/
def set (name : String) (v : Value) (st : State) : State :=
  match st.scopes with
  | [] => { st with vars := st.vars.put name v }
  | s :: rest => { st with scopes := s.put name v :: rest }

/-- Run something in a further scope, keeping only what it prints. -/
def within_ (scope : Scope) (run : State → Run State) (st : State) : Run State := do
  let after ← run { st with scopes := scope :: st.scopes }
  return { st with out := after.out }

/-- All names and their values, inner scopes first to be seen. -/
def visible (st : State) : Scope :=
  st.scopes.reverse.foldl Scope.update (st.context.update st.vars)

/-- Add the blocks of a template inherited from behind those that replace them. -/
def addBlocks (st : State) (bs : List Block) : State :=
  let add (blocks : List (String × List (List Stmt))) (b : Block) :=
    if blocks.any (·.1 == b.name) then
      blocks.map fun e => if e.1 == b.name then (e.1, e.2 ++ [b.body]) else e
    else blocks ++ [(b.name, [b.body])]
  { st with blocks := bs.foldl add st.blocks }

end State

/-! ## Giving values to names -/

/-- What is said when there are too few or too many values. -/
def countFault (expected got : Nat) : TemplateFault :=
  .wrongValue
    (if got < expected then
      "not enough values to unpack (expected " ++ String.ofList (Number.digits expected) ++
        ", got " ++ String.ofList (Number.digits got) ++ ")"
    else "too many values to unpack (expected " ++ String.ofList (Number.digits expected) ++ ")")

mutual

/-- Give what a binder names its values. -/
def Binder.assign (l : Loans) : Binder → Value → State → Result State
  | .name s, v, st => .ok (st.set s v)
  | .member _ _, _, _ => .error .late
  | .tuple parts, v, st =>
    match (v.look l).items with
    | .error f => .error f
    | .ok vs =>
      if vs.length == parts.length then assignAll l parts vs st
      else .error (countFault parts.length vs.length)

/-- Give what binders name their values one by one. -/
def assignAll (l : Loans) : List Binder → List Value → State → Result State
  | b :: bs, v :: vs, st =>
    match b.assign l v st with
    | .error f => .error f
    | .ok st => assignAll l bs vs st
  | _, _, st => .ok st

end

/-- Give what a binder names its values, with what is left of the lists that are lent. -/
def Run.assign (b : Binder) (v : Value) (st : State) : Run State := do b.assign (← loans) v st

/-- The value of a literal. -/
def Literal.value : Literal → Value
  | .none => .none
  | .bool b => .bool b
  | .whole n => .whole n
  | .fraction x => .fraction x
  | .string t => .text t

/-- What stands for the value of a conditional expression that has none. -/
def noChoice (place : Place) : Value :=
  .blank ("the inline if-expression on line " ++ String.ofList (Number.digits place.line) ++
    " in " ++ Text.quotedString place.template ++
    " evaluated to false and no else section was defined.")

/-- The name of a template. -/
def templateName (v : Value) : Result String := do
  match ← v.useFully with
  | .text t =>
    match t.toString? with
    | some s => return s
    | none => .error .notFound
  | v => if v.isKey then .error .notFound else .error .wrongType

/-- The first template of some names that exists, with its name. -/
def firstTemplate (lib : Library) : List String → Run (Option (String × Template))
  | [] => return none
  | n :: rest => do
    if (lib.source? n).isSome then return some (n, ← fetch lib n)
    else
      Run.onShelf (Shelf.touch n)
      firstTemplate lib rest

/-- The names of templates that a value gives: its own, or those of several. -/
def templateNames (v : Value) : Result (List String) := do
  match ← v.useFully with
  | .text t => [.text t].mapM templateName
  | v => (← v.items).mapM templateName

/-- The template that a value names, or the first of several that exists, with its name. -/
def chooseTemplate (lib : Library) (mayBeMissing : Bool) (v : Value) :
    Run (Option (String × Template)) := do
  match ← firstTemplate lib (← templateNames (v.look (← Run.loans))) with
  | some t => return some t
  | none => if mayBeMissing then return none else throw .notFound

/-- Pair values with their positions. -/
def positioned {α : Type} (start : Nat) : List α → List (Nat × α)
  | [] => []
  | a :: rest => (start, a) :: positioned (start + 1) rest

mutual

/-- The value of an expression. -/
def eval : Nat → Library → State → Expr → Run Value
  | 0, _, _, _ => throw .endless
  | fuel + 1, lib, st, e =>
    match e with
    | .literal l => return l.value
    | .name s => return st.get s
    | .captured => return .text st.captured
    | .list items => do return .list (← items.mapM (eval fuel lib st))
    | .tuple items => do return .tuple (← items.mapM (eval fuel lib st))
    | .mapping entries => do
      let pairs ← entries.mapM fun e => do
        let k ← eval fuel lib st e.1
        let v ← eval fuel lib st e.2
        return (k, v)
      pairs.foldlM (fun m e => do
        match m, ← e.1.use with
        | .mapping m, k =>
          if k.isKey then return .mapping (Value.putEntry k e.2 m) else throw .wrongType
        | m, _ => return m) (.mapping [])
    | .negative e => do (← eval fuel lib st e).negate
    | .positive e => do (← eval fuel lib st e).affirm
    | .not e => do return .bool !(← Run.truth (← eval fuel lib st e))
    | .arithmetic op a b => do
      let x ← eval fuel lib st a
      let y ← eval fuel lib st b
      let l ← Run.loans
      Value.arithmetic op (x.look l) (y.look l)
    | .join parts => do
      let values ← parts.mapM (eval fuel lib st)
      let texts ← values.mapM Run.text
      return .text texts.flatten
    | .compare e rest => do
      let v ← eval fuel lib st e
      evalChain fuel lib st v rest
    | .and a b => do
      let v ← eval fuel lib st a
      if ← Run.truth v then eval fuel lib st b else return v
    | .or a b => do
      let v ← eval fuel lib st a
      if ← Run.truth v then return v else eval fuel lib st b
    | .choice test yes no place => do
      if ← Run.truth (← eval fuel lib st test) then eval fuel lib st yes
      else
        match no with
        | some e => eval fuel lib st e
        | none => return noChoice place
    | .member e name => do (← eval fuel lib st e).getMember name
    | .index e i => do
      let v ← eval fuel lib st e
      let i ← eval fuel lib st i
      let l ← Run.loans
      v.getElement l (i.lookThrough l)
    | .slice e start stop step => do
      let v ← eval fuel lib st e
      let start ← start.mapM (eval fuel lib st)
      let stop ← stop.mapM (eval fuel lib st)
      let step ← step.mapM (eval fuel lib st)
      (v.look (← Run.loans)).slice start stop step
    | .call f args named => do
      let f ← eval fuel lib st f
      let g ← evalGiven fuel lib st args named
      call fuel lib st f g
    | .filter e name args named _ => do
      let v ← eval fuel lib st e
      let g ← evalGiven fuel lib st args named
      Run.filter name v g
    | .test e name args named _ => do
      let v ← eval fuel lib st e
      let g ← evalGiven fuel lib st args named
      let l ← Run.loans
      return .bool (← (v.lookThrough l).passes name (g.lookThrough l))

/-- Whether a chain of comparisons holds; it ends with the first that does not. -/
def evalChain : Nat → Library → State → Value → List (Comparison × Expr) → Run Value
  | 0, _, _, _, _ => throw .endless
  | _ + 1, _, _, _, [] => return .bool true
  | fuel + 1, lib, st, v, (c, e) :: rest => do
    let w ← eval fuel lib st e
    let l ← Run.loans
    if ← Value.compare c (v.lookThrough l) (w.lookThrough l) then evalChain fuel lib st w rest
    else return .bool false

/-- The values of arguments. -/
def evalGiven : Nat → Library → State → List Expr → List (String × Expr) → Run Given
  | 0, _, _, _, _ => throw .endless
  | fuel + 1, lib, st, args, named => do
    let args ← args.mapM (eval fuel lib st)
    let named ← named.mapM fun e => do return (e.1, ← eval fuel lib st e.2)
    return ⟨args, named⟩

/-- Call a value. -/
def call : Nat → Library → State → Value → Given → Run Value
  | 0, _, _, _, _ => throw .endless
  | fuel + 1, lib, st, f, g => do
    match ← f.useFully with
    | .method receiver name => Run.callMethod receiver name g
    | .builtin name => Value.callBuiltin name g
    | .block name level => do return .text (← blockText fuel lib st name level false)
    | .routine name params body scopes => do
      let given ← g.take (params.map (·.1)) 0
      let self : Scope := [(name, .routine name params body scopes)]
      let inner : State :=
        { st with scopes := [] :: self :: scopes, outer := false, within := none, out := [] }
      let inner ← bindParams fuel lib inner (params.zip given)
      let after ← execAll fuel lib inner body
      return .text after.printed
    | _ => throw .wrongType

/-- Give parameters their values, a parameter without one its default. -/
def bindParams : Nat → Library → State → List ((String × Option Expr) × Option Value) → Run State
  | 0, _, _, _ => throw .endless
  | _ + 1, _, st, [] => return st
  | fuel + 1, lib, st, ((name, default_), given) :: rest => do
    let v ←
      match given, default_ with
      | some v, _ => pure v
      | none, some e => eval fuel lib st e
      | none, none =>
        pure (.missing ("parameter " ++ Text.quotedString name ++ " was not provided"))
    bindParams fuel lib (st.set name v) rest

/-- The text of a block; an open one sees the scopes around it. -/
def blockText : Nat → Library → State → String → Nat → Bool → Run Text
  | 0, _, _, _, _, _ => throw .endless
  | fuel + 1, lib, st, name, level, isOpen => do
    let body := ((st.bodies name)[level]?).getD []
    let after ← execAll fuel lib
      { st with scopes := [] :: (if isOpen then st.scopes else []), within := some (name, level),
                outer := false, out := [] } body
    return after.printed

/-- Run statements one after the other. -/
def execAll : Nat → Library → State → List Stmt → Run State
  | 0, _, _, _ => throw .endless
  | fuel + 1, lib, st, body => body.foldlM (exec fuel lib) st

/-- Run a statement. -/
def exec : Nat → Library → State → Stmt → Run State
  | 0, _, _, _ => throw .endless
  | fuel + 1, lib, st, s =>
    match s with
    | .text cs => return if st.isSilent then st else st.print (cs.map .scalar)
    | .print e =>
      if st.isSilent then return st
      else do
        let v ← eval fuel lib st e
        return st.print (← Run.text v)
    | .forEach binder source test body orElse _ => do
      let v ← eval fuel lib st source
      let items ← Run.items v
      let items ←
        match test with
        | none => pure items
        | some test => Run.occupying v <| items.filterM fun item => do
          let inner ← Run.assign binder item { st with scopes := [] :: st.scopes }
          Run.truth (← eval fuel lib inner test)
      if items.isEmpty then st.within_ [] (fun st => execAll fuel lib st orElse)
      else
        let uses := mentions "loop" body
        Run.occupying v <| (positioned 0 items).foldlM (fun st item =>
          let scope : Scope := if uses then [("loop", .loop item.1 items)] else []
          st.within_ scope fun st => do execAll fuel lib (← Run.assign binder item.2 st) body) st
    | .branch cases orElse => execCases fuel lib st cases orElse
    | .assign binder e _ => do Run.assign binder (← eval fuel lib st e) st
    | .assignText binder filtered body _ => do
      let inner := { st with scopes := [] :: st.scopes, outer := false, out := [] }
      let after ← execAll fuel lib inner body
      let v ← eval fuel lib { st with captured := after.printed } filtered
      Run.assign binder v st
    | .printText filtered body => do
      let after ← execAll fuel lib { st with scopes := [] :: st.scopes, out := [] } body
      let v ← eval fuel lib { st with captured := after.printed } filtered
      return st.print (← Run.text v)
    | .scope bindings body => do
      let values ← bindings.mapM fun e => do return (e.1, ← eval fuel lib st e.2)
      st.within_ [] fun inner => do
        let inner ← values.foldlM (fun inner e => Run.assign e.1 e.2 inner) inner
        execAll fuel lib inner body
    | .block name isOpen _ _ =>
      if st.scopes.isEmpty && st.parent.isSome then return st
      else do return st.print (← blockText fuel lib st name 0 isOpen)
    | .inherit_ parent _ => do
      let name ← templateName (← eval fuel lib st parent)
      if st.parent.isSome then throw .late
      else
        let t ← fetch lib name
        return { st.addBlocks t.blocks with parent := some t }
    | .insert template mayBeMissing withNames => do
      let v ← eval fuel lib st template
      match ← chooseTemplate lib mayBeMissing v with
      | none => return st
      | some (name, t) =>
        if withNames then
          let after ← renderRoot fuel lib t (.initial st.visible t)
          return st.print after.printed
        else
          let text ← keeping lib name <| Run.apart do
            let after ← renderRoot fuel lib t (.initial [] t)
            return after.printed
          return st.print text
    | .routine name params body => return (st.set name (.routine name params body st.scopes))

/-- Run the first branch whose condition holds. -/
def execCases : Nat → Library → State → List (Expr × List Stmt) → List Stmt → Run State
  | 0, _, _, _, _ => throw .endless
  | fuel + 1, lib, st, [], orElse => execAll fuel lib st orElse
  | fuel + 1, lib, st, (test, body) :: rest, orElse => do
    if ← Run.truth (← eval fuel lib st test) then execAll fuel lib st body
    else execCases fuel lib st rest orElse

/-- Render a template, or the one that it inherits from in its place. -/
def renderRoot : Nat → Library → Template → State → Run State
  | 0, _, _, _ => throw .endless
  | fuel + 1, lib, t, st => do
    let after ← execAll fuel lib st t.body
    match after.parent with
    | none => return after
    | some parent => renderRoot fuel lib parent { after with parent := none }

end

/-- The depth to which templates and routines may refer to each other. -/
def maxDepth : Nat := 3000

/-- Render the template of a name with the values of some names, `self` not among them, down to a
    depth. -/
def Library.renderTo (lib : Library) (depth : Nat) (name : String) (context : Scope) :
    Run Text := do
  let t ← fetch lib name
  if (context.get? "self").isSome then throw .wrongType
  else
    let st ← renderRoot depth lib t (.initial context t)
    return st.printed

end Scaffold.Template
