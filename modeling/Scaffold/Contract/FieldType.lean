/-
  The types of fields.

  A field has the name of its leftmost alternative: parentheses and `readonly` are looked through,
  an array has the name of its items, and of a union the first alternative counts. A union whose
  first alternative has no name is unresolved. `isRepeated` tells arrays from single values.
-/
import Scaffold.Source.SyntaxTree
import Scaffold.Specification.Basic

namespace Scaffold.Contract

open Source

/-- Why a type has no name. -/
inductive TypeFault where
  /-- The first alternative of a union names nothing; this is its text. -/
  | unresolved (text : String)
  /-- The text of a type is unreadable. -/
  | undecodable (fault : Utf8.Fault)
  /-- A type has no part to take its name from. -/
  | shapeless
  deriving DecidableEq

/-- The text of a node. -/
def spelled (t : SyntaxTree) : Except TypeFault String :=
  match t.spelling with
  | .ok s => .ok s
  | .error f => .error (.undecodable f)

/-- Parentheses and `readonly`. -/
def isWrapper (k : Kind) : Bool :=
  k == .parenthesizedType || k == .readonlyType

/-- References to declared types. -/
def isReference (k : Kind) : Bool :=
  k == .typeName || k == .nestedTypeName || k == .genericType

mutual

/-- Look through parentheses and `readonly`. -/
def unwrap : SyntaxTree → SyntaxTree
  | .node k r s t cs =>
    if isWrapper k then unwrapFirst (.node k r s t cs) cs else .node k r s t cs

/-- Look through the first child that has a name; without one the type is `whole`. -/
def unwrapFirst (whole : SyntaxTree) : List SyntaxTree → SyntaxTree
  | [] => whole
  | c :: cs => if c.isNamed then unwrap c else unwrapFirst whole cs

end

/-- The type arguments of a reference. -/
def typeArgumentsOf (t : SyntaxTree) : List SyntaxTree :=
  if t.kind == .genericType then
    match t.child? .typeArguments with
    | some args => args.namedChildren
    | none => []
  else []

/-- The name of a reference without its arguments. -/
def referenceName (t : SyntaxTree) : Except TypeFault String :=
  if t.kind == .genericType then
    match t.child? .name with
    | some n => spelled n
    | none => .ok ""
  else spelled t

/-- Whether a node is `Array` with arguments. -/
def isArrayReference (t : SyntaxTree) : Except TypeFault Bool :=
  if t.kind == .genericType then
    (referenceName t).map fun name => name == "Array" && !(typeArgumentsOf t).isEmpty
  else .ok false

/-- Whether an unwrapped type is an array. -/
def isArray (t : SyntaxTree) : Except TypeFault Bool :=
  if t.kind == .arrayType then .ok true else isArrayReference t

/-- Whether a type stands for a sequence. -/
def isRepeated (t : SyntaxTree) : Except TypeFault Bool :=
  isArray (unwrap t)

/-- The words for the absence of a value. -/
def emptyWords : List String := ["null", "undefined", "void", "never"]

/-- Whether a type, as the first alternative of a union, names something. -/
def isNameable (t : SyntaxTree) : Except TypeFault Bool :=
  if t.kind == .objectType || t.kind == .functionType || t.kind == .constructorType then .ok false
  else (spelled t).map fun s => !emptyWords.contains s

/-- The scalar that a literal is a value of. -/
def literalScalar (text : String) : String :=
  if emptyWords.contains text then text
  else if text == "true" || text == "false" then "boolean"
  else
    match text.toList with
    | c :: _ => if c == '\'' || c == '"' || c.toNat == 96 then "string" else "number"
    | [] => "number"

/-- The first alternative of a union must name something, unless it is itself a union. -/
def checkAlternative (first : SyntaxTree) : Except TypeFault Unit :=
  if first.kind == .unionType then .ok ()
  else
    match isNameable first with
    | .error f => .error f
    | .ok true => .ok ()
    | .ok false =>
      match spelled first with
      | .ok s => .error (.unresolved s)
      | .error f => .error f

mutual

/-- The name of a type. -/
def resolve : SyntaxTree → Except TypeFault String
  | .node k r s t cs =>
    let whole := SyntaxTree.node k r s t cs
    if isWrapper k then resolveFirst (spelled whole) cs
    else if k == .arrayType then resolveFirst (.error .shapeless) cs
    else if k == .genericType then
      match isArrayReference whole with
      | .error f => .error f
      | .ok true => resolveArgument cs
      | .ok false => referenceName whole
    else if k == .unionType then
      match whole.namedChildren with
      | [] => .error .shapeless
      | first :: _ =>
        match checkAlternative (unwrap first) with
        | .error f => .error f
        | .ok () => resolveFirst (.error .shapeless) cs
    else if k == .literalType then (spelled whole).map literalScalar
    else spelled whole

/-- The name of the first child that has one; `other` when there is none. -/
def resolveFirst (other : Except TypeFault String) : List SyntaxTree → Except TypeFault String
  | [] => other
  | c :: cs => if c.isNamed then resolve c else resolveFirst other cs

/-- The name of the first type argument among the children of a reference. -/
def resolveArgument : List SyntaxTree → Except TypeFault String
  | [] => .error .shapeless
  | .node _ r _ _ args :: cs =>
    if r == some .typeArguments then resolveFirst (.error .shapeless) args else resolveArgument cs

end

/-- The name of the type of a field, `any` for a field without one. -/
def fieldType : Option SyntaxTree → Except TypeFault String
  | none => .ok untyped
  | some t => resolve t

/-- Whether a field holds a sequence; a field without a type does not. -/
def fieldRepeated : Option SyntaxTree → Except TypeFault Bool
  | none => .ok false
  | some t => isRepeated t

end Scaffold.Contract
