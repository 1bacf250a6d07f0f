/-
  What templates are permitted to do.

  Three things can be permitted or not: to insert templates without names, to draw, and to take
  items out of lists. An expression, a statement or a body is `allowed` if it does nothing that is
  not permitted; with `Permit.any` all of them are.

  Items are taken by functions of lists, which are values: where they may not be taken, no function
  of lists may be named, and what is looked up in square brackets has to be written out.
-/
import Mathlib
import Scaffold.Template.Form
import Scaffold.Template.Operation

namespace Scaffold.Template

/-- What templates are permitted to do. -/
structure Permit where
  /-- To insert templates without names. -/
  nameless : Bool
  /-- To draw. -/
  draws : Bool
  /-- To take items out of lists, or turn them around. -/
  takes : Bool

namespace Permit

/-- Everything is permitted. -/
def any : Permit := ⟨true, true, true⟩

/-- All that is inserted is given names. -/
def named : Permit := { any with nameless := false }

/-- Nothing is drawn. -/
def still : Permit := { any with draws := false }

/-- No list is changed. -/
def sparing : Permit := { any with takes := false }

end Permit

variable {p : Permit}

/-! ## Expressions -/

/-- Whether a name is none of a function of lists. -/
def isSparing (name : String) : Bool := !Value.listMethods.contains name

/-- Whether an index is written out and none of the functions of lists. -/
def Expr.isSparing : Expr → Bool
  | .literal (.string t) => t.toString?.all Template.isSparing
  | .literal _ => true
  | _ => false

mutual

/-- Whether an expression does only what is permitted. -/
def Expr.allowed (p : Permit) : Expr → Bool
  | .literal _ | .name _ | .captured => true
  | .list items | .tuple items | .join items => allowedExprs p items
  | .mapping entries => allowedPairs p entries
  | .negative e | .positive e | .not e => e.allowed p
  | .member e name => (p.takes || isSparing name) && e.allowed p
  | .arithmetic _ a b | .and a b | .or a b => a.allowed p && b.allowed p
  | .index e i => (p.takes || i.isSparing) && e.allowed p && i.allowed p
  | .compare e rest => e.allowed p && allowedCompared p rest
  | .choice test yes no _ => test.allowed p && yes.allowed p && allowedOption p no
  | .slice e start stop step =>
    e.allowed p && allowedOption p start && allowedOption p stop && allowedOption p step
  | .call f args named => f.allowed p && allowedExprs p args && allowedArgs p named
  | .filter e name args named _ =>
    (p.draws || name != "random") && e.allowed p && allowedExprs p args && allowedArgs p named
  | .test e _ args named _ => e.allowed p && allowedExprs p args && allowedArgs p named

/-- Whether expressions are allowed. -/
def allowedExprs (p : Permit) : List Expr → Bool
  | [] => true
  | e :: rest => e.allowed p && allowedExprs p rest

/-- Whether the entries of a mapping are allowed. -/
def allowedPairs (p : Permit) : List (Expr × Expr) → Bool
  | [] => true
  | (k, v) :: rest => k.allowed p && v.allowed p && allowedPairs p rest

/-- Whether a chain of comparisons is allowed. -/
def allowedCompared (p : Permit) : List (Comparison × Expr) → Bool
  | [] => true
  | (_, e) :: rest => e.allowed p && allowedCompared p rest

/-- Whether named arguments are allowed. -/
def allowedArgs (p : Permit) : List (String × Expr) → Bool
  | [] => true
  | (_, e) :: rest => e.allowed p && allowedArgs p rest

/-- Whether an expression that may be absent is allowed. -/
def allowedOption (p : Permit) : Option Expr → Bool
  | none => true
  | some e => e.allowed p

end

theorem allowedExprs_iff {es : List Expr} :
    allowedExprs p es = true ↔ ∀ e ∈ es, e.allowed p = true := by
  induction es with
  | nil => simp [allowedExprs]
  | cons e rest ih => simp [allowedExprs, ih]

theorem allowedPairs_iff {es : List (Expr × Expr)} :
    allowedPairs p es = true ↔ ∀ e ∈ es, e.1.allowed p = true ∧ e.2.allowed p = true := by
  induction es with
  | nil => simp [allowedPairs]
  | cons e rest ih => simp [allowedPairs, ih]

theorem allowedArgs_iff {es : List (String × Expr)} :
    allowedArgs p es = true ↔ ∀ e ∈ es, e.2.allowed p = true := by
  induction es with
  | nil => simp [allowedArgs]
  | cons e rest ih => simp [allowedArgs, ih]

theorem allowedOption_iff {o : Option Expr} :
    allowedOption p o = true ↔ ∀ e ∈ o, e.allowed p = true := by
  cases o <;> simp [allowedOption]

mutual

theorem Expr.allowed_any (e : Expr) : e.allowed .any = true := by
  cases e with
  | literal | name | captured => rfl
  | list items | tuple items | join items => exact allowedExprs_any items
  | mapping entries => exact allowedPairs_any entries
  | negative e | positive e | not e | member e => exact e.allowed_any
  | arithmetic _ a b | and a b | or a b | index a b =>
    rw [Expr.allowed, a.allowed_any, b.allowed_any]
    rfl
  | compare e rest =>
    rw [Expr.allowed, e.allowed_any, allowedCompared_any rest]
    rfl
  | choice test yes no =>
    rw [Expr.allowed, test.allowed_any, yes.allowed_any, allowedOption_any no]
    rfl
  | slice e start stop step =>
    rw [Expr.allowed, e.allowed_any, allowedOption_any start, allowedOption_any stop,
      allowedOption_any step]
    rfl
  | call f args named =>
    rw [Expr.allowed, f.allowed_any, allowedExprs_any args, allowedArgs_any named]
    rfl
  | filter e name args named =>
    rw [Expr.allowed, e.allowed_any, allowedExprs_any args, allowedArgs_any named]
    rfl
  | test e name args named =>
    rw [Expr.allowed, e.allowed_any, allowedExprs_any args, allowedArgs_any named]
    rfl

theorem allowedExprs_any (es : List Expr) : allowedExprs .any es = true := by
  cases es with
  | nil => rfl
  | cons e rest => simp [allowedExprs, e.allowed_any, allowedExprs_any rest]

theorem allowedPairs_any (es : List (Expr × Expr)) : allowedPairs .any es = true := by
  cases es with
  | nil => rfl
  | cons e rest => simp [allowedPairs, e.1.allowed_any, e.2.allowed_any, allowedPairs_any rest]

theorem allowedCompared_any (es : List (Comparison × Expr)) : allowedCompared .any es = true := by
  cases es with
  | nil => rfl
  | cons e rest => simp [allowedCompared, e.2.allowed_any, allowedCompared_any rest]

theorem allowedArgs_any (es : List (String × Expr)) : allowedArgs .any es = true := by
  cases es with
  | nil => rfl
  | cons e rest => simp [allowedArgs, e.2.allowed_any, allowedArgs_any rest]

theorem allowedOption_any (o : Option Expr) : allowedOption .any o = true := by
  cases o with
  | none => rfl
  | some e => exact e.allowed_any

end

/-! ## Statements -/

/-- Whether the defaults of parameters are allowed. -/
def allowedParams (p : Permit) (params : List (String × Option Expr)) : Bool :=
  params.all fun q => allowedOption p q.2

/-- Whether the values of bindings are allowed. -/
def allowedBindings (p : Permit) (bindings : List (Binder × Expr)) : Bool :=
  bindings.all fun b => b.2.allowed p

mutual

/-- Whether a statement does only what is permitted. -/
def Stmt.allowed (p : Permit) : Stmt → Bool
  | .text _ => true
  | .print e | .assign _ e _ | .inherit_ e _ => e.allowed p
  | .insert template _ withNames => (withNames || p.nameless) && template.allowed p
  | .forEach _ source test body orElse _ =>
    source.allowed p && allowedOption p test && allowedIn p body && allowedIn p orElse
  | .branch cases orElse => allowedInCases p cases && allowedIn p orElse
  | .block _ _ body _ => allowedIn p body
  | .assignText _ filtered body _ | .printText filtered body =>
    filtered.allowed p && allowedIn p body
  | .scope bindings body => allowedBindings p bindings && allowedIn p body
  | .routine _ params body => allowedParams p params && allowedIn p body

/-- Whether all statements are allowed. -/
def allowedIn (p : Permit) : List Stmt → Bool
  | [] => true
  | s :: rest => s.allowed p && allowedIn p rest

/-- Whether all branches are allowed. -/
def allowedInCases (p : Permit) : List (Expr × List Stmt) → Bool
  | [] => true
  | (test, body) :: rest => test.allowed p && allowedIn p body && allowedInCases p rest

end

theorem allowedIn_iff {body : List Stmt} :
    allowedIn p body = true ↔ ∀ s ∈ body, s.allowed p = true := by
  induction body with
  | nil => simp [allowedIn]
  | cons s rest ih => simp [allowedIn, ih]

mutual

theorem Stmt.allowed_blocks (s : Stmt) (h : s.allowed p = true) :
    ∀ b ∈ s.blocks, allowedIn p b.body = true := by
  cases s with
  | text | print | assign | inherit_ | insert => simp [Stmt.blocks]
  | forEach _ _ _ body orElse =>
    simp only [Stmt.allowed, Bool.and_eq_true] at h
    simp only [Stmt.blocks, List.mem_append]
    rintro b (hb | hb)
    · exact allowedIn_blocks body h.1.2 b hb
    · exact allowedIn_blocks orElse h.2 b hb
  | branch cases orElse =>
    simp only [Stmt.allowed, Bool.and_eq_true] at h
    simp only [Stmt.blocks, List.mem_append]
    rintro b (hb | hb)
    · exact allowedInCases_blocks cases h.1 b hb
    · exact allowedIn_blocks orElse h.2 b hb
  | block _ _ body =>
    simp only [Stmt.blocks, List.forall_mem_cons]
    exact ⟨h, allowedIn_blocks body h⟩
  | assignText _ _ body => exact allowedIn_blocks body (Bool.and_eq_true_iff.1 h).2
  | printText _ body => exact allowedIn_blocks body (Bool.and_eq_true_iff.1 h).2
  | scope _ body => exact allowedIn_blocks body (Bool.and_eq_true_iff.1 h).2
  | routine _ _ body => exact allowedIn_blocks body (Bool.and_eq_true_iff.1 h).2

theorem allowedIn_blocks (body : List Stmt) (h : allowedIn p body = true) :
    ∀ b ∈ blocksIn body, allowedIn p b.body = true := by
  cases body with
  | nil => simp [blocksIn]
  | cons s rest =>
    simp only [allowedIn, Bool.and_eq_true] at h
    simp only [blocksIn, List.mem_append]
    rintro b (hb | hb)
    · exact Stmt.allowed_blocks s h.1 b hb
    · exact allowedIn_blocks rest h.2 b hb

theorem allowedInCases_blocks (cases : List (Expr × List Stmt))
    (h : allowedInCases p cases = true) :
    ∀ b ∈ blocksInCases cases, allowedIn p b.body = true := by
  cases cases with
  | nil => simp [blocksInCases]
  | cons c rest =>
    obtain ⟨_, body⟩ := c
    simp only [allowedInCases, Bool.and_eq_true] at h
    simp only [blocksInCases, List.mem_append]
    rintro b (hb | hb)
    · exact allowedIn_blocks body h.1.2 b hb
    · exact allowedInCases_blocks rest h.2 b hb

end

mutual

theorem Stmt.allowed_any (s : Stmt) : s.allowed .any = true := by
  cases s with
  | text => rfl
  | print e | assign _ e | inherit_ e => exact e.allowed_any
  | insert template _ withNames => cases withNames <;> exact template.allowed_any
  | forEach _ source test body orElse =>
    simp [Stmt.allowed, source.allowed_any, allowedOption_any test, allowedIn_any body,
      allowedIn_any orElse]
  | branch cases orElse => simp [Stmt.allowed, allowedInCases_any cases, allowedIn_any orElse]
  | block _ _ body => exact allowedIn_any body
  | assignText _ filtered body => simp [Stmt.allowed, filtered.allowed_any, allowedIn_any body]
  | printText filtered body => simp [Stmt.allowed, filtered.allowed_any, allowedIn_any body]
  | scope bindings body =>
    simp [Stmt.allowed, allowedBindings, Expr.allowed_any, allowedIn_any body]
  | routine _ params body =>
    simp [Stmt.allowed, allowedParams, allowedOption_any, allowedIn_any body]

theorem allowedIn_any (body : List Stmt) : allowedIn .any body = true := by
  cases body with
  | nil => rfl
  | cons s rest => simp [allowedIn, Stmt.allowed_any s, allowedIn_any rest]

theorem allowedInCases_any (cases : List (Expr × List Stmt)) :
    allowedInCases .any cases = true := by
  cases cases with
  | nil => rfl
  | cons c rest =>
    simp [allowedInCases, c.1.allowed_any, allowedIn_any c.2, allowedInCases_any rest]

end

end Scaffold.Template
