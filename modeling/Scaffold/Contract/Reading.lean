/-
  Reading a specification out of an interface definition.

  Each top-level declaration contributes its `Findings` alone: a version constant, operations, a
  type, capabilities. The findings of a source are those of its declarations one after the other,
  and the specification is complete when no rule of `missing?` is broken.
-/
import Scaffold.Contract.Doc
import Scaffold.Contract.Escape
import Scaffold.Contract.FieldType
import Scaffold.Failure.Basic
import Scaffold.Source.Grammar

namespace Scaffold.Contract

open Source

/-- The names of declarations that have a meaning. -/
structure Conventions where
  versionConstant : String := "MCP_VERSION"
  operationsInterface : String := "McpOperations"
  capabilitiesInterface : String := "McpCapabilities"
  typeEnding : String := "Type"
  typeMarker : String := "McpType"
  descriptionStart : String := "MCP"

/-- What declarations contribute to a specification. -/
structure Findings where
  version : Option Text := none
  operations : List Operation := []
  types : List RecordType := []
  capabilities : List Capability := []
  /-- Types without fields, which are left out. -/
  emptyTypes : List String := []

namespace Findings

/-- Findings one after the other; the later version counts. -/
def append (a b : Findings) : Findings where
  version := b.version <|> a.version
  operations := a.operations ++ b.operations
  types := a.types ++ b.types
  capabilities := a.capabilities ++ b.capabilities
  emptyTypes := a.emptyTypes ++ b.emptyTypes

end Findings

/-- Why a declaration cannot be read. -/
inductive ReadFault where
  | undecodable (fault : Utf8.Fault)
  | escape (fault : EscapeFault)
  | shapeless
  /-- The union type of a field has no name. -/
  | unresolved (type field alternative : String)
  deriving DecidableEq

/-- The text of a node. -/
def read (t : SyntaxTree) : Except ReadFault String :=
  match t.spelling with
  | .ok s => .ok s
  | .error f => .error (.undecodable f)

/-! ## Strings and names -/

/-- The value of the pieces of a string. -/
def pieces : List SyntaxTree → Except ReadFault Text
  | [] => .ok []
  | t :: rest => do
    let value ←
      if t.kind == .fragment then (read t).map Text.ofString
      else if t.kind == .escape then do
        let s ← read t
        match decodeEscape s.toList with
        | .ok value => .ok value
        | .error f => .error (.escape f)
      else .ok []
    let more ← pieces rest
    .ok (value ++ more)

/-- The value of a string. -/
def stringValue (t : SyntaxTree) : Except ReadFault Text :=
  pieces t.namedChildren

/-- The text of a child in a role, empty without one. -/
def childText (r : Role) (t : SyntaxTree) : Except ReadFault String :=
  match t.child? r with
  | some c => read c
  | none => .ok ""

/-- The name of a member without quotes. -/
def memberName (t : SyntaxTree) : Except ReadFault String :=
  (childText .name t).map fun s =>
    String.ofList (s.toList.filter fun c => c != '\'' && c != '"')

/-- The type behind the colon of a member. -/
def memberType (t : SyntaxTree) : Option SyntaxTree :=
  match t.child? .type with
  | some a => if a.kind == .ascribed then a.namedChildren.head? else some a
  | none => none

/-- Whether a member carries the mark of the optional. -/
def isOptional (t : SyntaxTree) : Bool :=
  t.children.any fun c => c.kind == .token && c.text == Text.ofString "?"

/-- The description in the sibling before a node, or another one. -/
def describe (previous : Option SyntaxTree) (other : String) : Except ReadFault String :=
  match docOf previous with
  | .ok (some s) => .ok s
  | .ok none => .ok other
  | .error f => .error (.undecodable f)

/-! ## Declarations -/

/-- The properties of an interface, each with its elder sibling. -/
def properties (t : SyntaxTree) : List (Option SyntaxTree × SyntaxTree) :=
  match t.child? .body with
  | some body =>
    if body.kind == .interfaceBody || body.kind == .objectType then
      (withPrevious none body.children).filter fun m => m.2.kind == .property
    else []
  | none => []

/-- The value of a variable that can be a version. -/
def versionValue (t : SyntaxTree) : Option SyntaxTree :=
  match t.child? .value with
  | some v =>
    let v? := if v.kind == .asExpression then v.namedChildren.head? else some v
    v?.filter fun v => v.kind == .string
  | none => none

/-- The version that the variables of a declaration give. -/
def findVersion (c : Conventions) : List SyntaxTree → Except ReadFault (Option Text)
  | [] => .ok none
  | t :: rest =>
    if t.kind == .declarator then do
      let name ← childText .name t
      match if name == c.versionConstant then versionValue t else none with
      | some v => (stringValue v).map some
      | none => findVersion c rest
    else findVersion c rest

/-- The text of the type argument at a position, `any` without one. -/
def argumentText (args : List SyntaxTree) (i : Nat) : Except ReadFault String :=
  match args[i]? with
  | some t => read t
  | none => .ok untyped

/-- The operation that a property declares, if it refers to a type. -/
def operationOf (c : Conventions) (m : Option SyntaxTree × SyntaxTree) :
    Except ReadFault (List Operation) :=
  match memberType m.2 with
  | some type =>
    if isReference type.kind then do
      let name ← memberName m.2
      let args := typeArgumentsOf type
      let description ← describe m.1 (c.descriptionStart ++ " " ++ name ++ " operation")
      let inputType ← argumentText args 0
      let outputType ← argumentText args 1
      .ok [{ name, description, inputType, outputType, required := !isOptional m.2 }]
    else .ok []
  | none => .ok []

/-- The field that a property of a type declares. -/
def fieldOf (type : String) (m : Option SyntaxTree × SyntaxTree) : Except ReadFault Field := do
  let name ← memberName m.2
  let lift {α : Type} (r : Except TypeFault α) : Except ReadFault α :=
    match r with
    | .ok a => .ok a
    | .error (.unresolved text) => .error (.unresolved type name text)
    | .error (.undecodable f) => .error (.undecodable f)
    | .error .shapeless => .error .shapeless
  let fieldTypeName ← lift (fieldType (memberType m.2))
  let repeated ← lift (fieldRepeated (memberType m.2))
  let description ← describe m.1 (name ++ " field")
  .ok { name, type := fieldTypeName, required := !isOptional m.2, repeated, description }

/-- The capability that a property declares. -/
def capabilityOf (c : Conventions) (m : Option SyntaxTree × SyntaxTree) :
    Except ReadFault Capability := do
  let name ← memberName m.2
  let description ← describe m.1 (c.descriptionStart ++ " " ++ name ++ " capability")
  .ok { name, description, required := !isOptional m.2 }

/-- Read each item of a list. -/
def readEach {α β : Type} (f : α → Except ReadFault β) : List α → Except ReadFault (List β)
  | [] => .ok []
  | a :: rest => do
    let b ← f a
    let bs ← readEach f rest
    .ok (b :: bs)

/-- Whether a string ends with another. -/
def endsWith (s ending : String) : Bool :=
  ending.toList.reverse.isPrefixOf s.toList.reverse

/-- What an interface contributes. -/
def interfaceFindings (c : Conventions) (previous : Option SyntaxTree) (t : SyntaxTree) :
    Except ReadFault Findings := do
  let name ← childText .name t
  let members := properties t
  let operations ←
    if name == c.operationsInterface then (readEach (operationOf c) members).map List.flatten
    else .ok []
  let typed : Findings ←
    if endsWith name c.typeEnding && name != c.typeMarker then do
      let fields ← readEach (fieldOf name) members
      if fields.isEmpty then .ok { emptyTypes := [name] }
      else do
        let description ← describe previous (c.descriptionStart ++ " " ++ name)
        .ok { types := [{ name, description, fields }] }
    else .ok {}
  let capabilities ←
    if name == c.capabilitiesInterface then readEach (capabilityOf c) members else .ok []
  .ok { typed with operations, capabilities }

/-- The declaration inside an export, or the node itself. -/
def unwrapExport (t : SyntaxTree) : SyntaxTree :=
  if t.kind == .exportStatement then (t.child? .declaration).getD t else t

/-- What a top-level node contributes. -/
def findings (c : Conventions) (m : Option SyntaxTree × SyntaxTree) : Except ReadFault Findings :=
  let t := unwrapExport m.2
  if t.kind == .variableDeclaration then
    (findVersion c t.namedChildren).map fun version => { version }
  else if t.kind == .interfaceDeclaration then interfaceFindings c m.1 t
  else .ok {}

/-- The findings of top-level nodes up to the first that cannot be read. -/
def collect (c : Conventions) (found : Findings) :
    List (Option SyntaxTree × SyntaxTree) → Findings × Option ReadFault
  | [] => (found, none)
  | m :: rest =>
    match findings c m with
    | .ok more => collect c (found.append more) rest
    | .error f => (found, some f)

/-- The top-level nodes of a tree, each with its elder sibling. -/
def topLevel (t : SyntaxTree) : List (Option SyntaxTree × SyntaxTree) :=
  (withPrevious none t.children).filter fun m => m.2.isNamed

/-! ## Completeness -/

/-- The operations that every specification declares. -/
def requiredOperations : List String := ["Get", "List", "Create", "Update", "Delete"]

/-- What a specification lacks. -/
inductive Missing where
  | operations
  | types
  | operation (name : String)
  | capabilities
  deriving DecidableEq

/-- The first thing that a specification lacks. -/
def missing? (s : Specification) : Option Missing :=
  if s.operations.isEmpty then some .operations
  else if s.types.isEmpty then some .types
  else
    match requiredOperations.find? fun name => !s.operationNames.contains name with
    | some name => some (.operation name)
    | none => if s.capabilities.isEmpty then some .capabilities else none

/-! ## The whole source -/

/-- A failure of the reader of interface definitions. -/
def parserFailure (n : Int) (message : String) (details : List (String × Json)) : Failure :=
  .ofArea .parser n message details none

/-- The failure that something is missing from the specification in a file. -/
def Missing.failure (path : String) : Missing → Failure
  | operations =>
    parserFailure 2 "MCP specification does not define any operations" [("path", .str path)]
  | types => parserFailure 3 "MCP specification does not define any types" [("path", .str path)]
  | operation name =>
    parserFailure 4 ("MCP specification is missing required operation: " ++ name)
      [("path", .str path), ("operation", .str name)]
  | capabilities =>
    parserFailure 5 "MCP specification does not define any capabilities" [("path", .str path)]

/-- The failure that a declaration in a file cannot be read. -/
def ReadFault.failure (path : String) : ReadFault → Failure
  | undecodable f => .undecodable f
  | escape f => .escape f
  | shapeless => .shapeless
  | unresolved type field alternative =>
    parserFailure 7
      ("Union type of field " ++ type ++ "." ++ field ++ " has no resolvable first alternative")
      [("path", .str path), ("type", .str type), ("field", .str field),
       ("alternative", .str alternative)]

/-- The failure that a file is broken at a position. -/
def brokenFailure (path : String) (p : Position) : Failure :=
  parserFailure 6 "MCP specification source contains syntax errors"
    [("path", .str path), ("line", .int p.line), ("column", .int p.column)]

/-- The specification that findings make up. -/
def Findings.specification (f : Findings) : Specification where
  version := f.version.getD (Text.ofString defaultVersion)
  operations := f.operations
  types := f.types
  capabilities := f.capabilities

/-- What reading a tree gives: the specification or a failure, and the types left out. -/
structure Outcome where
  result : Except Failure Specification
  emptyTypes : List String

/-- Read the tree of a source. -/
def readTree (path : String) (c : Conventions) (source : Text) (t : SyntaxTree) : Outcome :=
  match t.firstError with
  | some e => ⟨.error (brokenFailure path (Position.ofIndex source e.start)), []⟩
  | none =>
    match collect c {} (topLevel t) with
    | (found, some f) => ⟨.error (f.failure path), found.emptyTypes⟩
    | (found, none) =>
      let s := found.specification
      match missing? s with
      | some m => ⟨.error (m.failure path), found.emptyTypes⟩
      | none => ⟨.ok s, found.emptyTypes⟩

/-- Read the bytes of a source. -/
def readSource (path : String) (c : Conventions) (bytes : List UInt8) : Outcome :=
  let source := Utf8.units bytes
  readTree path c source (Source.parse source)

end Scaffold.Contract
