/-
  A context as the values of names in a template.

  Every list of a context is lent to the templates, at a place of its own. `Context.leave` is the
  context with what the templates have left of its lists.
-/
import Scaffold.Context
import Scaffold.Template.Loan

namespace Scaffold.Context

open Template

/-! ## Places -/

/-- The lists of a context; a category and a type are counted from zero. -/
inductive Shared where
  | operations
  | category (i : Nat)
  | types
  | fields (i : Nat)
  | requiredFields (i : Nat)
  | capabilities
  | requiredCapabilities
  /-- The operations of one category, which are put together for it alone. -/
  | chosen

/-- The place of a list. -/
def Shared.spot : Shared → Spot
  | operations => [0]
  | category i => [1, i]
  | types => [2]
  | fields i => [3, i]
  | requiredFields i => [4, i]
  | capabilities => [5]
  | requiredCapabilities => [6]
  | chosen => [7]

/-! ## Values -/

/-- Entries by name as a mapping. -/
def record (entries : List (String × Value)) : Value :=
  .mapping (entries.map fun e => (Value.ofString e.1, e.2))

/-- A list of the context with its items as values. -/
def shared {α : Type} (list : Shared) (value : α → Value) (items : List α) : Value :=
  .lent list.spot (items.map value)

/-- A project as a value. -/
def projectValue (p : Project) : Value :=
  record
    [("project_name", .ofString p.name), ("version", .ofString p.version),
     ("description", .ofString p.description), ("author", .ofString p.author),
     ("license", .ofString p.license)]

/-- An operation as a value. -/
def OperationEntry.value (o : OperationEntry) : Value :=
  record
    [("name", .ofString o.name), ("handler_name", .ofString o.handlerName),
     ("description", .ofString o.description), ("input_type", .ofString o.inputType),
     ("output_type", .ofString o.outputType), ("input_type_name", .ofString o.inputTypeName),
     ("output_type_name", .ofString o.outputTypeName), ("required", .bool o.required),
     ("category", .ofString o.category), ("verb", .ofString o.verb),
     ("is_mutation", .bool o.isMutation)]

/-- A field as a value. -/
def FieldEntry.value (f : FieldEntry) : Value :=
  record
    [("name", .ofString f.name), ("type", .ofString f.type),
     ("target_type", .ofString f.targetType), ("element_type", .ofString f.elementType),
     ("required", .bool f.required), ("repeated", .bool f.repeated),
     ("is_generated", .bool f.isGenerated), ("description", .ofString f.description)]

/-- The type with a number as a value. -/
def TypeEntry.value (i : Nat) (t : TypeEntry) : Value :=
  record
    [("name", .ofString t.name), ("description", .ofString t.description),
     ("fields", shared (.fields i) FieldEntry.value t.fields),
     ("required_fields", shared (.requiredFields i) Value.ofString t.requiredFields)]

/-- A capability as a value. -/
def capabilityValue (c : Capability) : Value :=
  record
    [("name", .ofString c.name), ("description", .ofString c.description),
     ("required", .bool c.required)]

/-- The names of a context and their values. -/
def values (c : Context) : Scope :=
  [("project", projectValue c.project), ("framework", .ofString c.framework.name),
   ("language", .ofString c.language.name), ("protocol_version", .text c.version),
   ("operations", shared .operations OperationEntry.value c.operations),
   ("categories", record (c.categories.mapIdx fun i g =>
     (g.1, shared (.category i) Value.ofString g.2))),
   ("category_routes", record (c.routes.map fun r => (r.1, Value.ofString r.2))),
   ("types", .lent (Shared.spot .types) (c.types.mapIdx TypeEntry.value)),
   ("capabilities", shared .capabilities capabilityValue c.capabilities),
   ("required_capabilities", shared .requiredCapabilities Value.ofString c.requiredCapabilities),
   ("operation_count", .whole c.operationCount), ("type_count", .whole c.typeCount)]

/-- The operations of a category. -/
def operationsIn (c : Context) (category : String) : List OperationEntry :=
  c.operations.filter fun o => o.category == category

/-- The names of a context, with those of one category if that is given: the category and its
    operations besides the others. -/
def valuesFor (c : Context) : Option String → Scope
  | none => c.values
  | some category =>
    c.values ++
      [("category", .ofString category),
       ("category_operations", shared .chosen OperationEntry.value (c.operationsIn category))]

/-! ## What is left -/

/-- A type with what is left of its lists. -/
def TypeEntry.leave (l : Loans) (i : Nat) (t : TypeEntry) : TypeEntry :=
  { t with
    fields := l.pick (Shared.spot (.fields i)) t.fields
    requiredFields := l.pick (Shared.spot (.requiredFields i)) t.requiredFields }

/-- A context with what is left of its lists. -/
def leave (l : Loans) (c : Context) : Context :=
  { c with
    operations := l.pick (Shared.spot .operations) c.operations
    categories := c.categories.mapIdx fun i g => (g.1, l.pick (Shared.spot (.category i)) g.2)
    types := l.pick (Shared.spot .types) (c.types.mapIdx (TypeEntry.leave l))
    capabilities := l.pick (Shared.spot .capabilities) c.capabilities
    requiredCapabilities :=
      l.pick (Shared.spot .requiredCapabilities) c.requiredCapabilities }

end Scaffold.Context
