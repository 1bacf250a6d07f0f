/-
  What the templates are given.

  `Context.build` groups the operations of a specification by category, spells every type in the
  language of the generated sources, and refuses specifications whose names repeat or whose
  operations refer to unknown types.
-/
import Scaffold.Config
import Scaffold.Failure.Basic
import Scaffold.Naming.Category
import Scaffold.Text.Order

namespace Scaffold

namespace Context

/-- An operation for the templates. -/
structure OperationEntry where
  name : String
  handlerName : String
  description : String
  inputType : String
  outputType : String
  inputTypeName : String
  outputTypeName : String
  required : Bool
  category : String
  verb : String
  isMutation : Bool
  deriving DecidableEq

/-- A field for the templates. -/
structure FieldEntry where
  name : String
  type : String
  targetType : String
  elementType : String
  required : Bool
  repeated : Bool
  isGenerated : Bool
  description : String
  deriving DecidableEq

/-- A type for the templates. -/
structure TypeEntry where
  name : String
  description : String
  fields : List FieldEntry
  requiredFields : List String
  deriving DecidableEq

end Context

/-- What the templates are given. Categories are ordered by name. -/
structure Context where
  project : Project
  framework : Framework
  language : Language
  version : Text
  operations : List Context.OperationEntry
  categories : List (String × List String)
  routes : List (String × String)
  types : List Context.TypeEntry
  capabilities : List Capability
  requiredCapabilities : List String
  operationCount : Nat
  typeCount : Nat
  deriving DecidableEq

namespace Context

/-! ## Checks -/

/-- The first name that stands among those before it. -/
def firstRepeated (seen : List String) : List String → Option String
  | [] => none
  | n :: rest => if seen.contains n then some n else firstRepeated (n :: seen) rest

/-- Whether an operation may refer to a type. -/
def isKnown (known : List String) (type : String) : Bool :=
  type == untyped || isScalar type || known.contains type

/-- The first reference of an operation to an unknown type, its input before its output. -/
def unknownReference (known : List String) : List Operation → Option (Operation × String)
  | [] => none
  | o :: rest =>
    if !isKnown known o.inputType then some (o, o.inputType)
    else if !isKnown known o.outputType then some (o, o.outputType)
    else unknownReference known rest

/-- Why a specification cannot be given to the templates. -/
inductive Refusal where
  | repeatedOperation (name : String)
  | repeatedType (name : String)
  | unknownType (operation type : String)
  deriving DecidableEq

/-- The first reason to refuse a specification. -/
def refusal? (s : Specification) : Option Refusal :=
  match firstRepeated [] s.operationNames with
  | some n => some (.repeatedOperation n)
  | none =>
    match firstRepeated [] s.typeNames with
    | some n => some (.repeatedType n)
    | none => (unknownReference s.typeNames s.operations).map fun r => .unknownType r.1.name r.2

/-! ## Entries -/

/-- An operation for the templates. -/
def operationEntry (c : Config) (o : Operation) : OperationEntry where
  name := o.name
  handlerName := Naming.snakeCase o.name
  description := o.description
  inputType := c.language.spell o.inputType
  outputType := c.language.spell o.outputType
  inputTypeName := o.inputType
  outputTypeName := o.outputType
  required := o.required
  category := Naming.category c.groups o.name
  verb := Naming.verb o.name
  isMutation := Naming.isMutation o.name

/-- A field for the templates. -/
def fieldEntry (l : Language) (known : List String) (f : Field) : FieldEntry where
  name := f.name
  type := f.type
  targetType := l.resolve f.type f.repeated
  elementType := l.spell f.type
  required := f.required
  repeated := f.repeated
  isGenerated := known.contains f.type
  description := f.description

/-- A type for the templates. -/
def typeEntry (l : Language) (known : List String) (t : RecordType) : TypeEntry where
  name := t.name
  description := t.description
  fields := t.fields.map (fieldEntry l known)
  requiredFields := (t.fields.filter Field.required).map Field.name

/-! ## Categories -/

/-- Add an operation to its category; a new category goes to the end. -/
def addTo (category name : String) : List (String × List String) → List (String × List String)
  | [] => [(category, [name])]
  | (k, names) :: rest =>
    if k == category then (k, names ++ [name]) :: rest else (k, names) :: addTo category name rest

/-- The operations of each category, categories in order of first occurrence. -/
def grouped (ops : List OperationEntry) : List (String × List String) :=
  ops.foldl (fun groups o => addTo o.category o.name groups) []

/-- The categories ordered by name. -/
def sortedGroups (ops : List OperationEntry) : List (String × List String) :=
  (grouped ops).mergeSort fun a b => Text.notAfter a.1 b.1

/-! ## The context -/

/-- The context of a specification that nothing is wrong with. -/
def assemble (c : Config) (s : Specification) : Context :=
  let operations := s.operations.map (operationEntry c)
  let types := s.types.map (typeEntry c.language s.typeNames)
  let categories := sortedGroups operations
  { project := c.project
    framework := c.framework
    language := c.language
    version := s.version
    operations
    categories
    routes := categories.map fun g => (g.1, Naming.pluralize g.1)
    types
    capabilities := s.capabilities
    requiredCapabilities := (s.capabilities.filter Capability.required).map Capability.name
    operationCount := operations.length
    typeCount := types.length }

/-- The failure that a specification is refused with. -/
def Refusal.failure : Refusal → Failure
  | repeatedOperation n =>
    .ofArea .mapper 3 ("Duplicate operation name: " ++ n) [("operation", .str n)] none
  | repeatedType n => .ofArea .mapper 3 ("Duplicate type name: " ++ n) [("type", .str n)] none
  | unknownType operation type =>
    .ofArea .mapper 2 ("Operation " ++ operation ++ " references unknown type: " ++ type)
      [("operation", .str operation), ("type", .str type)] none

/-- The context of a specification. -/
def build (s : Specification) (c : Config) : Except Failure Context :=
  match refusal? s with
  | some r => .error r.failure
  | none => .ok (assemble c s)

/-- The kind of a JSON value, as it is reported. -/
def kindName : Json → String
  | .null => "NoneType"
  | .bool _ => "bool"
  | .int _ => "int"
  | .float _ => "float"
  | .str _ => "str"
  | .arr _ => "list"
  | .obj _ => "dict"

/-- The context of a specification given as a JSON value. -/
def buildFromJson (v : Json) (c : Config) : Except Failure Context :=
  match Specification.ofJson .value v with
  | .ok s => build s c
  | .error issues =>
    .error (.ofArea .mapper 1 "Malformed MCP specification passed to context builder"
      [("received", .str (kindName v))] (some (.invalid issues)))

end Context

end Scaffold
