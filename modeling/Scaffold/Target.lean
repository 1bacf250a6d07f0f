/-
  The languages that servers are generated in, and how they spell types.
-/
import Scaffold.Text.Blank

namespace Scaffold

/-- A language of generated sources. -/
inductive Language where
  | typescript
  | python
  deriving DecidableEq

namespace Language

/-- The name of a language. -/
def name : Language → String
  | typescript => "typescript"
  | python => "python"

/-- The language with a name. -/
def ofName? (s : String) : Option Language :=
  [typescript, python].find? fun l => l.name == s

/-- How a language spells the scalar types. -/
def scalars : Language → List (String × String)
  | typescript =>
    [("string", "string"), ("number", "number"), ("integer", "number"), ("boolean", "boolean"),
     ("any", "any"), ("unknown", "unknown"), ("object", "Record<string, unknown>"),
     ("null", "null"), ("undefined", "undefined"), ("bigint", "bigint")]
  | python =>
    [("string", "str"), ("number", "float"), ("integer", "int"), ("boolean", "bool"),
     ("any", "Any"), ("unknown", "Any"), ("object", "dict[str, Any]"), ("null", "None"),
     ("undefined", "None"), ("bigint", "int")]

/-- How a language spells a type; a type that is no scalar keeps its name. -/
def spell (l : Language) (type : String) : String :=
  match l.scalars.find? fun s => s.1 == type with
  | some s => s.2
  | none => type

/-- How a language spells a sequence of a type. -/
def spellMany (l : Language) (type : String) : String :=
  let one := l.spell type
  match l with
  | python => "list[" ++ one ++ "]"
  | typescript =>
    if one.toList.any fun c => c == ' ' || c == '<' then "Array<" ++ one ++ ">" else one ++ "[]"

/-- How a language spells a type or a sequence of it. -/
def resolve (l : Language) (type : String) (repeated : Bool) : String :=
  if repeated then l.spellMany type else l.spell type

end Language

/-- Whether a type is a scalar. -/
def isScalar (type : String) : Bool :=
  Language.typescript.scalars.any fun s => s.1 == type

/-- A server framework. -/
inductive Framework where
  | express
  | fastapi
  deriving DecidableEq

namespace Framework

/-- The name of a framework. -/
def name : Framework → String
  | express => "express"
  | fastapi => "fastapi"

/-- All frameworks, ordered by name. -/
def all : List Framework := [express, fastapi]

/-- The framework with a name. -/
def ofName? (s : String) : Option Framework :=
  all.find? fun f => f.name == s

/-- The language of the sources for a framework. -/
def language : Framework → Language
  | express => .typescript
  | fastapi => .python

end Framework

end Scaffold
