/-
  The forms of templates: expressions, statements and whole templates.

  `Expr.uses` and `Stmt.uses` list what an expression or statement refers to, in the order in
  which a template is checked.
-/
import Scaffold.Template.Token

namespace Scaffold

namespace Template

/-! ## Expressions -/

/-- A value written in a template. -/
inductive Literal where
  | none
  | bool (b : Bool)
  | whole (n : Nat)
  | fraction (x : Float)
  | string (t : Text)

/-- Operations of arithmetic. -/
inductive Arithmetic where
  | add | sub | mul | div | floorDiv | mod | pow
  deriving DecidableEq

/-- Comparisons. -/
inductive Comparison where
  | eq | ne | lt | le | gt | ge | isIn | notIn
  deriving DecidableEq

/-- A line of a template. -/
structure Place where
  template : String
  line : Nat

/-- An expression. Filters, tests and conditional expressions keep the line they stand on. -/
inductive Expr where
  | literal (l : Literal)
  | name (s : String)
  /-- The text of the statement that the expression belongs to. -/
  | captured
  | list (items : List Expr)
  | tuple (items : List Expr)
  | mapping (entries : List (Expr × Expr))
  | negative (e : Expr)
  | positive (e : Expr)
  | not (e : Expr)
  | arithmetic (op : Arithmetic) (a b : Expr)
  /-- Texts one after the other. -/
  | join (parts : List Expr)
  /-- A chain of comparisons. -/
  | compare (e : Expr) (rest : List (Comparison × Expr))
  | and (a b : Expr)
  | or (a b : Expr)
  /-- `yes if test else no` -/
  | choice (test yes : Expr) (no : Option Expr) (place : Place)
  | member (e : Expr) (name : String)
  | index (e i : Expr)
  | slice (e : Expr) (start stop step : Option Expr)
  | call (f : Expr) (args : List Expr) (named : List (String × Expr))
  | filter (e : Expr) (name : String) (args : List Expr) (named : List (String × Expr)) (line : Nat)
  | test (e : Expr) (name : String) (args : List Expr) (named : List (String × Expr)) (line : Nat)

/-! ## Statements -/

/-- What values are given to: a name, a member of a name, or several of these at once. -/
inductive Binder where
  | name (s : String)
  | member (s part : String)
  | tuple (parts : List Binder)

/-- A statement. -/
inductive Stmt where
  /-- Text that stands for itself. -/
  | text (cs : List Char)
  | print (e : Expr)
  /-- `for binder in source if test`, with what is done when nothing is left to run through. -/
  | forEach (binder : Binder) (source : Expr) (test : Option Expr) (body orElse : List Stmt)
      (line : Nat)
  /-- Branches with their conditions, and the branch without one. -/
  | branch (cases : List (Expr × List Stmt)) (orElse : List Stmt)
  | assign (binder : Binder) (e : Expr) (line : Nat)
  /-- Give a name the text of the body, after a filter. -/
  | assignText (binder : Binder) (filtered : Expr) (body : List Stmt) (line : Nat)
  /-- Print the text of the body after a filter. -/
  | printText (filtered : Expr) (body : List Stmt)
  /-- Give names values for the body only. -/
  | scope (bindings : List (Binder × Expr)) (body : List Stmt)
  /-- A part that templates below may replace; it sees the names around it when it is open. -/
  | block (name : String) (isOpen : Bool) (body : List Stmt) (line : Nat)
  /-- The template that this one fills the blocks of. -/
  | inherit_ (parent : Expr) (line : Nat)
  /-- Put another template here. -/
  | insert (template : Expr) (mayBeMissing withNames : Bool)
  /-- A named piece of template with parameters. -/
  | routine (name : String) (params : List (String × Option Expr)) (body : List Stmt)

end Template

/-- A template. -/
structure Template where
  body : List Template.Stmt

namespace Template

/-! ## What a template refers to -/

/-- Why a template refers to something. -/
inductive UseKind where
  | filter
  | test
  | load
  /-- A statement that may not stand where it does. -/
  | misplaced
  deriving DecidableEq

/-- Something that a template refers to. A `soft` use stands under a condition, so that it is a
    mistake only when it is reached. -/
structure Use where
  kind : UseKind
  name : String
  line : Nat
  soft : Bool

mutual

/-- What an expression refers to. -/
def Expr.uses (soft : Bool) : Expr → List Use
  | .literal _ | .captured => []
  | .name s => [⟨.load, s, 0, soft⟩]
  | .list items | .tuple items | .join items => usesAll soft items
  | .mapping entries => usesEntries soft entries
  | .negative e | .positive e | .not e | .member e _ => e.uses soft
  | .arithmetic _ a b | .and a b | .or a b | .index a b => a.uses soft ++ b.uses soft
  | .compare e rest => e.uses soft ++ usesCompared soft rest
  | .choice test yes no _ => test.uses true ++ yes.uses true ++ usesOption true no
  | .slice e start stop step =>
    e.uses soft ++ usesOption soft start ++ usesOption soft stop ++ usesOption soft step
  | .call f args named => f.uses soft ++ usesAll soft args ++ usesNamed soft named
  | .filter e name args named line =>
    ⟨.filter, name, line, soft⟩ :: (e.uses soft ++ usesAll soft args ++ usesNamed soft named)
  | .test e name args named line =>
    ⟨.test, name, line, soft⟩ :: (e.uses soft ++ usesAll soft args ++ usesNamed soft named)

/-- What expressions refer to. -/
def usesAll (soft : Bool) : List Expr → List Use
  | [] => []
  | e :: rest => e.uses soft ++ usesAll soft rest

/-- What the entries of a mapping refer to. -/
def usesEntries (soft : Bool) : List (Expr × Expr) → List Use
  | [] => []
  | (k, v) :: rest => k.uses soft ++ v.uses soft ++ usesEntries soft rest

/-- What a chain of comparisons refers to. -/
def usesCompared (soft : Bool) : List (Comparison × Expr) → List Use
  | [] => []
  | (_, e) :: rest => e.uses soft ++ usesCompared soft rest

/-- What named arguments refer to. -/
def usesNamed (soft : Bool) : List (String × Expr) → List Use
  | [] => []
  | (_, e) :: rest => e.uses soft ++ usesNamed soft rest

/-- What an expression that may be absent refers to. -/
def usesOption (soft : Bool) : Option Expr → List Use
  | none => []
  | some e => e.uses soft

end

mutual

/-- The names that a binder gives values to. -/
def Binder.names : Binder → List String
  | .name s => [s]
  | .member _ _ => []
  | .tuple parts => namesAll parts

/-- The names that binders give values to. -/
def namesAll : List Binder → List String
  | [] => []
  | b :: rest => b.names ++ namesAll rest

end

/-- What the defaults of parameters refer to. -/
def usesParams : List (String × Option Expr) → List Use
  | [] => []
  | (_, e) :: rest => usesOption false e ++ usesParams rest

/-- What bindings refer to. -/
def usesBindings (soft : Bool) : List (Binder × Expr) → List Use
  | [] => []
  | (_, e) :: rest => e.uses soft ++ usesBindings soft rest

/-- The uses of the name of the loop state as the name of something else. -/
def misnamed (line : Nat) (binder : Binder) : List Use :=
  if binder.names.contains "loop" then [⟨.misplaced, "loop", line, false⟩] else []

mutual

/-- What a statement inside of a loop may not give a value to. -/
def Stmt.misuses : Stmt → List Use
  | .assign binder _ line => misnamed line binder
  | .assignText binder _ body line => misnamed line binder ++ misusesIn body
  | .forEach binder _ _ body orElse line =>
    misnamed line binder ++ misusesIn body ++ misusesIn orElse
  | .branch cases orElse => misusesInCases cases ++ misusesIn orElse
  | .printText _ body | .scope _ body | .routine _ _ body | .block _ _ body _ => misusesIn body
  | .text _ | .print _ | .inherit_ _ _ | .insert _ _ _ => []

/-- What statements inside of a loop may not give a value to. -/
def misusesIn : List Stmt → List Use
  | [] => []
  | s :: rest => s.misuses ++ misusesIn rest

/-- What branches inside of a loop may not give a value to. -/
def misusesInCases : List (Expr × List Stmt) → List Use
  | [] => []
  | (_, body) :: rest => misusesIn body ++ misusesInCases rest

end

mutual

/-- What a statement refers to, the bodies of blocks apart. `top` holds outside of loops, routines
    and blocks. -/
def Stmt.uses (soft top : Bool) : Stmt → List Use
  | .text _ => []
  | .print e | .assign _ e _ => e.uses soft
  | .forEach binder source test body orElse line =>
    misnamed line binder ++ misusesIn body ++ misusesIn orElse ++
      usesOption false test ++ source.uses soft ++ usesBody false false body ++
      usesBody false false orElse
  | .branch cases orElse => usesCases top cases ++ usesBody true top orElse
  | .assignText _ filtered body _ => usesBody false false body ++ filtered.uses soft
  | .printText filtered body => usesBody false false body ++ filtered.uses false
  | .scope bindings body => usesBindings soft bindings ++ usesBody false false body
  | .block _ _ _ _ => []
  | .inherit_ parent line =>
    (if top then [] else [⟨.misplaced, "", line, false⟩]) ++ parent.uses soft
  | .insert template _ _ => template.uses soft
  | .routine _ params body => usesParams params ++ usesBody false false body

/-- What statements refer to. -/
def usesBody (soft top : Bool) : List Stmt → List Use
  | [] => []
  | s :: rest => s.uses soft top ++ usesBody soft top rest

/-- What branches refer to. -/
def usesCases (top : Bool) : List (Expr × List Stmt) → List Use
  | [] => []
  | (test, body) :: rest => test.uses true ++ usesBody true top body ++ usesCases top rest

end

/-- A part that templates below may replace. -/
structure Block where
  name : String
  body : List Stmt
  line : Nat

mutual

/-- The blocks of a statement, outer ones first. -/
def Stmt.blocks : Stmt → List Block
  | .block name _ body line => ⟨name, body, line⟩ :: blocksIn body
  | .forEach _ _ _ body orElse _ => blocksIn body ++ blocksIn orElse
  | .branch cases orElse => blocksInCases cases ++ blocksIn orElse
  | .assignText _ _ body _ | .printText _ body | .scope _ body | .routine _ _ body => blocksIn body
  | .text _ | .print _ | .assign _ _ _ | .inherit_ _ _ | .insert _ _ _ => []

/-- The blocks of statements, in their order. -/
def blocksIn : List Stmt → List Block
  | [] => []
  | s :: rest => s.blocks ++ blocksIn rest

/-- The blocks of branches. -/
def blocksInCases : List (Expr × List Stmt) → List Block
  | [] => []
  | (_, body) :: rest => blocksIn body ++ blocksInCases rest

end

/-- The blocks of a template. -/
def blocks (t : Template) : List Block := blocksIn t.body

/-- Everything that a template refers to: first outside of its blocks, then block by block. -/
def uses (t : Template) : List Use :=
  usesBody false true t.body ++ t.blocks.flatMap fun b => usesBody false false b.body

end Template

end Scaffold
