/-
  The specification of a server: its operations, the types they exchange and its capabilities.

  This is what an interface definition is read into, what the cache stores and what the templates
  are given. All parts keep the order of their declaration.
-/
import Scaffold.Text.CodePoint

namespace Scaffold

/-- A member of a type. -/
structure Field where
  name : String
  type : String
  required : Bool
  /-- The member holds a sequence of `type`. -/
  repeated : Bool := false
  description : String := ""
  deriving DecidableEq

/-- A named record type. -/
structure RecordType where
  name : String
  description : String := ""
  fields : List Field
  deriving DecidableEq

/-- The type of an operation that declares none. -/
def untyped : String := "any"

/-- A remote operation; its types name record types or scalars. -/
structure Operation where
  name : String
  description : String := ""
  inputType : String := untyped
  outputType : String := untyped
  required : Bool := true
  deriving DecidableEq

/-- A behaviour that a server may support. -/
structure Capability where
  name : String
  description : String := ""
  required : Bool := true
  deriving DecidableEq

/-- The version of a specification that declares none. -/
def defaultVersion : String := "1.0.0"

/-- A specification. The version is the value of a string literal, which can hold surrogates. -/
structure Specification where
  version : Text := Text.ofString defaultVersion
  operations : List Operation := []
  types : List RecordType := []
  capabilities : List Capability := []
  deriving DecidableEq

namespace Specification

/-- The names of the operations in order. -/
def operationNames (s : Specification) : List String :=
  s.operations.map Operation.name

/-- The names of the types in order. -/
def typeNames (s : Specification) : List String :=
  s.types.map RecordType.name

end Specification

end Scaffold
