/-
  The tree of an interface definition.

  A node has a kind, an optional role in its parent, the place where it starts, the text it covers
  and its children in source order; comments and punctuation are children like any other.
  `firstError` looks for the first node that marks broken source.
-/
import Scaffold.Text.Utf8

namespace Scaffold.Source

/-- What a node is. Only what the readers of a tree tell apart has a kind of its own. -/
inductive Kind where
  /-- The whole source. -/
  | program
  /-- Source that fits no rule. -/
  | error
  /-- A token that the source lacks. -/
  | missing
  | comment
  /-- Punctuation and keywords. -/
  | token
  /-- A name that is no type. -/
  | name
  | exportStatement
  /-- `const`, `let` and `var` declarations. -/
  | variableDeclaration
  /-- One variable of a declaration. -/
  | declarator
  | interfaceDeclaration
  | interfaceBody
  /-- Any other statement or declaration. -/
  | statement
  /-- A property of an interface: a name, perhaps with a type. -/
  | property
  /-- Any other member of an interface. -/
  | member
  /-- A type with the colon before it. -/
  | ascribed
  | typeName
  /-- A type name with a path before it. -/
  | nestedTypeName
  /-- A type name with type arguments. -/
  | genericType
  | typeArguments
  | arrayType
  | unionType
  | readonlyType
  | parenthesizedType
  | literalType
  | objectType
  | functionType
  | constructorType
  /-- Any other type. -/
  | otherType
  | string
  /-- A run of characters of a string that stand for themselves. -/
  | fragment
  /-- An escape in a string. -/
  | escape
  /-- An expression that is given a type with `as`. -/
  | asExpression
  /-- An expression that can stand left of an assignment. -/
  | place
  /-- Any other expression. -/
  | expression
  deriving DecidableEq

/-- What a node is to its parent. -/
inductive Role where
  | name
  | type
  | value
  | body
  | declaration
  | typeArguments
  deriving DecidableEq

/-- A node: kind, role, start as a number of code points, covered text and children. -/
inductive SyntaxTree where
  | node (kind : Kind) (role : Option Role) (start : Nat) (text : Text) (children : List SyntaxTree)

namespace SyntaxTree

def kind : SyntaxTree → Kind
  | node k _ _ _ _ => k

def role : SyntaxTree → Option Role
  | node _ r _ _ _ => r

def start : SyntaxTree → Nat
  | node _ _ s _ _ => s

def text : SyntaxTree → Text
  | node _ _ _ t _ => t

def children : SyntaxTree → List SyntaxTree
  | node _ _ _ _ cs => cs

/-- A node without children. -/
def leaf (k : Kind) (start : Nat) (text : Text) : SyntaxTree :=
  node k none start text []

/-- The same node in another role. -/
def withRole (r : Role) : SyntaxTree → SyntaxTree
  | node k _ s t cs => node k (some r) s t cs

/-- Punctuation and keywords have no name; every other node has one. -/
def isNamed (t : SyntaxTree) : Bool :=
  t.kind != .token

/-- The children that have a name, comments included. -/
def namedChildren (t : SyntaxTree) : List SyntaxTree :=
  t.children.filter isNamed

/-- The first child in a role. -/
def child? (r : Role) (t : SyntaxTree) : Option SyntaxTree :=
  t.children.find? fun c => c.role == some r

/-- The text of a node as a string; bytes that are no UTF-8 make it unreadable. -/
def spelling (t : SyntaxTree) : Except Utf8.Fault String :=
  match t.text.toString? with
  | some s => .ok s
  | none => Utf8.decodeString (Utf8.textBytes t.text)

/-- A node that marks broken source. -/
def isError (t : SyntaxTree) : Bool :=
  t.kind == .error || t.kind == .missing

/-! ## Search for the first error -/

mutual

/-- The number of nodes of a tree. -/
def size : SyntaxTree → Nat
  | node _ _ _ _ cs => sizeList cs + 1

/-- The number of nodes of a list of trees. -/
def sizeList : List SyntaxTree → Nat
  | [] => 0
  | t :: ts => size t + sizeList ts

end

theorem size_eq (t : SyntaxTree) : size t = sizeList t.children + 1 := by
  cases t
  simp [size, children]

theorem sizeList_append (xs ys : List SyntaxTree) :
    sizeList (xs ++ ys) = sizeList xs + sizeList ys := by
  induction xs with
  | nil => simp [sizeList]
  | cons x xs ih => simp [sizeList, ih, Nat.add_assoc]

/-- Visit the nodes on a stack, each before its children, until one marks broken source. -/
def searchError : List SyntaxTree → Option SyntaxTree
  | [] => none
  | t :: rest => if t.isError then some t else searchError (t.children ++ rest)
termination_by stack => sizeList stack
decreasing_by
  rw [sizeList_append, sizeList, size_eq]
  omega

mutual

/-- Whether some node of a tree marks broken source. -/
def hasError : SyntaxTree → Bool
  | t@(node _ _ _ _ cs) => t.isError || anyError cs

/-- Whether some node of a list of trees marks broken source. -/
def anyError : List SyntaxTree → Bool
  | [] => false
  | t :: ts => hasError t || anyError ts

end

/-- The first node in source order that marks broken source. -/
def firstError (t : SyntaxTree) : Option SyntaxTree :=
  if t.hasError then searchError [t] else none

end SyntaxTree

/-! ## Places -/

/-- A line and a column, both counted from one; columns count bytes. -/
structure Position where
  line : Nat
  column : Nat
  deriving DecidableEq

/-- The position that follows this many code points of a text, when reading starts at `p`. -/
def Position.advance (p : Position) : Nat → Text → Position
  | 0, _ => p
  | _ + 1, [] => p
  | n + 1, c :: rest =>
    if c.is '\n' then Position.advance ⟨p.line + 1, 1⟩ n rest
    else Position.advance ⟨p.line, p.column + (Utf8.unitBytes c).length⟩ n rest

/-- The position of the code point with this index. -/
def Position.ofIndex (source : Text) (index : Nat) : Position :=
  Position.advance ⟨1, 1⟩ index source

end Scaffold.Source
