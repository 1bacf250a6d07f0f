/-
  Specifications as JSON.

  `Specification.toJson?` writes a specification, and `Specification.ofJson` reads one: each part
  is looked up by its key, parts that may be left out have a default, and unknown keys are
  refused. All that is wrong is reported, declared parts in their order and then unknown keys in
  theirs.
-/
import Scaffold.Failure.Issue
import Scaffold.Json.Reader
import Scaffold.Json.Writer
import Scaffold.Specification.Basic

namespace Scaffold

/-! ## Parts of records -/

namespace Checked

/-- The key that a part is found under, of those it may have. -/
def matchedKey? (keys : List String) (members : List (String × Json)) : Option String :=
  keys.find? fun k => (Json.find? k members).isSome

/-- A part of a record under the first of its keys that is present. A part that is absent has its
    default, or is missing under its first key. -/
def part {α : Type} (keys : List String) (default? : Option α) (check : Json → Checked α)
    (members : List (String × Json)) : Checked α :=
  match matchedKey? keys members with
  | some k =>
    match Json.find? k members with
    | some v => within (.key k) (check v)
    | none => .error []
  | none =>
    match default? with
    | some a => .ok a
    | none => .error [⟨[.key (keys.headD "")], .missing⟩]

/-- The members of a record under keys that no part was found under. -/
def extras (parts : List (List String)) (members : List (String × Json)) : List Issue :=
  let used := parts.filterMap fun keys => matchedKey? keys members
  (members.filter fun m => !used.contains m.1).map fun m => ⟨[.key m.1], .extra⟩

/-- A string. -/
def string : Json → Checked String
  | .str s => .ok s
  | _ => .error [⟨[], .notString⟩]

/-- The texts that stand for a truth value, in small letters. -/
def boolTexts : List (String × Bool) :=
  [("0", false), ("f", false), ("n", false), ("no", false), ("off", false), ("false", false),
   ("1", true), ("t", true), ("y", true), ("on", true), ("yes", true), ("true", true)]

/-- The truth value of a whole number of at most 64 bits. -/
def boolOfInt (n : Int) : Checked Bool :=
  if n == 0 then .ok false
  else if n == 1 then .ok true
  else if -9223372036854775808 ≤ n && n < 9223372036854775808 then .error [⟨[], .unreadableBool⟩]
  else .error [⟨[], .notBool⟩]

/-- The truth value of a float: one without a fraction counts as a whole number. -/
def boolOfFloat (x : Float) : Checked Bool :=
  if x == 0.0 then .ok false
  else if x == 1.0 then .ok true
  else if x.floor == x && -9223372036854775808.0 ≤ x && x ≤ 9223372036854775807.0 then
    .error [⟨[], .unreadableBool⟩]
  else .error [⟨[], .notBool⟩]

/-- A truth value, or a number or text that stands for one. -/
def bool : Json → Checked Bool
  | .bool b => .ok b
  | .int n => boolOfInt n
  | .float x => boolOfFloat x
  | .str s =>
    match boolTexts.find? fun t => t.1 == String.ofList (s.toList.map Char.toLower) with
    | some t => .ok t.2
    | none => .error [⟨[], .unreadableBool⟩]
  | _ => .error [⟨[], .notBool⟩]

/-- A list of parts. -/
def list {α : Type} (origin : Origin) (check : Json → Checked α) : Json → Checked (List α)
  | .arr items => each check 0 items
  | _ => .error [⟨[], .notList origin⟩]

/-- The members of a record. -/
def record {α : Type} (origin : Origin) (kind : String)
    (check : List (String × Json) → Checked α) : Json → Checked α
  | .obj members => check members
  | _ => .error [⟨[], .notRecord origin kind⟩]

end Checked

/-! ## Reading -/

namespace Field

/-- A field from its members. -/
def ofMembers (members : List (String × Json)) : Checked Field :=
  let name := Checked.part ["name"] none Checked.string members
  let type := Checked.part ["type"] none Checked.string members
  let required := Checked.part ["required"] none Checked.bool members
  let repeated := Checked.part ["repeated"] (some false) Checked.bool members
  let description := Checked.part ["description"] (some "") Checked.string members
  let extras :=
    Checked.extras [["name"], ["type"], ["required"], ["repeated"], ["description"]] members
  match name, type, required, repeated, description, extras with
  | .ok name, .ok type, .ok required, .ok repeated, .ok description, [] =>
    .ok { name, type, required, repeated, description }
  | _, _, _, _, _, _ =>
    .error (name.issues ++ type.issues ++ required.issues ++ repeated.issues ++
      description.issues ++ extras)

end Field

namespace RecordType

/-- A type from its members. -/
def ofMembers (origin : Origin) (members : List (String × Json)) : Checked RecordType :=
  let name := Checked.part ["name"] none Checked.string members
  let description := Checked.part ["description"] (some "") Checked.string members
  let fields := Checked.part ["fields"] none
    (Checked.list origin (Checked.record origin "Field" Field.ofMembers)) members
  let extras := Checked.extras [["name"], ["description"], ["fields"]] members
  match name, description, fields, extras with
  | .ok name, .ok description, .ok fields, [] => .ok { name, description, fields }
  | _, _, _, _ => .error (name.issues ++ description.issues ++ fields.issues ++ extras)

end RecordType

namespace Operation

/-- An operation from its members. -/
def ofMembers (members : List (String × Json)) : Checked Operation :=
  let input := ["inputType", "input_type"]
  let output := ["outputType", "output_type"]
  let name := Checked.part ["name"] none Checked.string members
  let description := Checked.part ["description"] (some "") Checked.string members
  let inputType := Checked.part input (some untyped) Checked.string members
  let outputType := Checked.part output (some untyped) Checked.string members
  let required := Checked.part ["required"] (some true) Checked.bool members
  let extras := Checked.extras [["name"], ["description"], input, output, ["required"]] members
  match name, description, inputType, outputType, required, extras with
  | .ok name, .ok description, .ok inputType, .ok outputType, .ok required, [] =>
    .ok { name, description, inputType, outputType, required }
  | _, _, _, _, _, _ =>
    .error (name.issues ++ description.issues ++ inputType.issues ++ outputType.issues ++
      required.issues ++ extras)

end Operation

namespace Capability

/-- A capability from its members. -/
def ofMembers (members : List (String × Json)) : Checked Capability :=
  let name := Checked.part ["name"] none Checked.string members
  let description := Checked.part ["description"] (some "") Checked.string members
  let required := Checked.part ["required"] (some true) Checked.bool members
  let extras := Checked.extras [["name"], ["description"], ["required"]] members
  match name, description, required, extras with
  | .ok name, .ok description, .ok required, [] => .ok { name, description, required }
  | _, _, _, _ => .error (name.issues ++ description.issues ++ required.issues ++ extras)

end Capability

namespace Specification

/-- A specification from its members. -/
def ofMembers (origin : Origin) (members : List (String × Json)) : Checked Specification :=
  let version := Checked.part ["version"] (some defaultVersion) Checked.string members
  let operations := Checked.part ["operations"] (some [])
    (Checked.list origin (Checked.record origin "Operation" Operation.ofMembers)) members
  let types := Checked.part ["types"] (some [])
    (Checked.list origin (Checked.record origin "Type" (RecordType.ofMembers origin))) members
  let capabilities := Checked.part ["capabilities"] (some [])
    (Checked.list origin (Checked.record origin "Capability" Capability.ofMembers)) members
  let extras := Checked.extras [["version"], ["operations"], ["types"], ["capabilities"]] members
  match version, operations, types, capabilities, extras with
  | .ok version, .ok operations, .ok types, .ok capabilities, [] =>
    .ok { version := Text.ofString version, operations, types, capabilities }
  | _, _, _, _, _ =>
    .error (version.issues ++ operations.issues ++ types.issues ++ capabilities.issues ++ extras)

/-- A specification from a JSON value. -/
def ofJson (origin : Origin) (v : Json) : Checked Specification :=
  Checked.record origin "Specification" (ofMembers origin) v

/-- A specification from JSON text in bytes. -/
def ofBytes (bytes : List UInt8) : Checked Specification :=
  match Json.readBytes bytes with
  | some v => ofJson .text v
  | none => .error [⟨[], .notJson⟩]

/-- A specification from JSON text. -/
def ofText (s : String) : Checked Specification :=
  match Json.read s.toList with
  | some v => ofJson .text v
  | none => .error [⟨[], .notJson⟩]

end Specification

/-! ## Writing -/

/-- A field as a JSON value. -/
def Field.toJson (f : Field) : Json :=
  .obj [("name", .str f.name), ("type", .str f.type), ("required", .bool f.required),
    ("repeated", .bool f.repeated), ("description", .str f.description)]

/-- A type as a JSON value. -/
def RecordType.toJson (t : RecordType) : Json :=
  .obj [("name", .str t.name), ("description", .str t.description),
    ("fields", .arr (t.fields.map Field.toJson))]

/-- An operation as a JSON value. -/
def Operation.toJson (o : Operation) : Json :=
  .obj [("name", .str o.name), ("description", .str o.description),
    ("inputType", .str o.inputType), ("outputType", .str o.outputType),
    ("required", .bool o.required)]

/-- A capability as a JSON value. -/
def Capability.toJson (c : Capability) : Json :=
  .obj [("name", .str c.name), ("description", .str c.description), ("required", .bool c.required)]

namespace Specification

/-- A specification as a JSON value; a version with surrogates has none. -/
def toJson? (s : Specification) : Option Json :=
  s.version.toString?.map fun version =>
    .obj [("version", .str version), ("operations", .arr (s.operations.map Operation.toJson)),
      ("types", .arr (s.types.map RecordType.toJson)),
      ("capabilities", .arr (s.capabilities.map Capability.toJson))]

/-- A specification as JSON text. -/
def toText? (s : Specification) : Option String :=
  s.toJson?.map Json.text

end Specification

end Scaffold
