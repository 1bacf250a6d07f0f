/-
  Computations of a renderer.

  A renderer works at a desk. There it has the shelf with the templates that it has read, what is
  left of the lists that are lent to it, and the luck that its draws are made with. What a
  computation has changed there by the time it fails stays changed.

  Nothing else that a template computes with can change, and nothing else is open: rendering is a
  function of the templates, the names given to them and the desk.
-/
import Scaffold.Template.Shelf

namespace Scaffold.Template

/-- What the draws to come will give. Each draw uses up the first. -/
abbrev Luck := Nat → Nat

/-- What is left of luck after some draws. -/
def Luck.after (luck : Luck) (n : Nat) : Luck := fun i => luck (n + i)

/-- What a renderer works with. -/
structure Desk where
  /-- The templates that were read, if they are kept. -/
  shelf : Option Shelf
  loans : Loans
  luck : Luck

/-- A computation at a desk, which may fail. -/
abbrev Run := ExceptT TemplateFault (StateM Desk)

namespace Run

/-- The result of a computation and the desk after it. -/
def perform {α : Type} (x : Run α) (d : Desk) : Result α × Desk := x.run d

/-- Change the shelf, if there is one. -/
def onShelf (f : Shelf → Shelf) : Run Unit := modify fun d => { d with shelf := d.shelf.map f }

/-- What is left of the lists that are lent. -/
def loans : Run Loans := do return (← get).loans

/-- Say which of the lists that are lent loops run through. -/
def setBusy (spots : List Spot) : Run Unit :=
  modify fun d => { d with loans := { d.loans with busy := spots } }

/-- Leave the items at some positions of a list that is lent. -/
def put (spot : Spot) (ps : Positions) : Run Unit :=
  modify fun d => { d with loans := d.loans.put spot ps }

/-- Draw a number below `n`. -/
def draw (n : Nat) : Run Nat := do
  let d ← get
  set { d with luck := d.luck.after 1 }
  return d.luck 0 % n

/-- Run a computation that no list is lent to. -/
def apart {α : Type} (x : Run α) : Run α := fun d =>
  let (r, d') := x.run { d with loans := .untouched }
  (r, { d' with loans := d.loans })

/-! ## Lists that are lent -/

/-- Whether a value counts as true. -/
def truth (v : Value) : Run Bool := do (v.look (← loans)).truth

/-- What a value runs through. -/
def items (v : Value) : Run (List Value) := do (v.look (← loans)).items

/-- The text of a value when it is printed. -/
def text (v : Value) : Run Text := do v.shown (← loans)

/-- Run a computation while a loop runs through a value. -/
def occupying {α : Type} (v : Value) (x : Run α) : Run α :=
  match v with
  | .lent spot _ => do
    let before := (← loans).busy
    setBusy (spot :: before)
    let a ← x
    setBusy before
    return a
  | _ => x

/-- Call a function of a list that is lent. -/
def change (spot : Spot) (items : List Value) (name : String) (g : Given) : Run Value := do
  let l ← loans
  if l.busy.contains spot then throw .late
  else
    let (taken, left) ← Value.callListMethod (l.positions spot items.length) name g
    put spot left
    return (taken.bind fun i => items[i]?).getD .none

/-- Call a function that belongs to a value. -/
def callMethod (receiver : Value) (name : String) (g : Given) : Run Value :=
  match receiver with
  | .lent spot items => change spot items name g
  | .text t => do Value.callMethod (.text t) name (g.lookThrough (← loans))
  | v => Value.callMethod v name g

/-! ## Draws -/

/-- An item of a value that has some, drawn. A mapping is asked for the number that is drawn as a
    key. -/
def pickFrom (v : Value) : Run Value := do
  match ← v.size with
  | 0 => return .missing "No random item, sequence was empty."
  | n + 1 =>
    let i ← draw (n + 1)
    match v.element? (.whole i), v with
    | some w, _ => return w
    | none, .mapping _ => throw .wrongKey
    | none, _ => throw .wrongType

/-- Apply a filter to a value. -/
def filter (name : String) (v : Value) (g : Given) : Run Value := do
  if name == "random" then
    let _ ← g.exactly []
    pickFrom (v.look (← loans))
  else v.applyFilter (← loans) name g

end Run

/-! ## Templates -/

/-- The template of a name, read again only if it is not on the shelf. -/
def fetch (lib : Library) (name : String) : Run Template := do
  match lib.load name with
  | .ok t =>
    Run.onShelf (Shelf.renew name ((lib.source? name).getD []))
    return t
  | .error f =>
    Run.onShelf (Shelf.touch name)
    throw f

/-- The text that the template of a name prints without names, made only if it is not kept. -/
def keeping (lib : Library) (name : String) (make : Run Text) : Run Text := do
  let source := (lib.source? name).getD []
  match (← get).shelf.bind (Shelf.text? name source) with
  | some text => return text
  | none =>
    let text ← make
    Run.onShelf (Shelf.note name source text)
    return text

end Scaffold.Template
