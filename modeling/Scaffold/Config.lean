/-
  The configuration of a generation run.
-/
import Scaffold.Failure.Issue
import Scaffold.Path
import Scaffold.Specification.Check
import Scaffold.Target

namespace Scaffold

/-- What the templates are told about the generated project. -/
structure Project where
  name : String
  version : String
  description : String
  author : String
  license : String
  deriving DecidableEq

/-- Everything that a generation run needs. `outputs` maps templates to paths below `outputDir`, and
    `groups` maps operations to categories; both keep their order. -/
structure Config where
  schemaPath : Path
  outputDir : Path
  templateDir : Path
  framework : Framework
  project : Project
  cachePath : Option Path
  outputs : List (String × String)
  groups : List (String × String)
  deriving DecidableEq

namespace Checked

/-- A string that is not empty. -/
def nonEmpty (v : Json) : Checked String :=
  match string v with
  | .ok "" => .error [⟨[], .emptyString⟩]
  | r => r

/-- A path. -/
def path : Json → Checked Path
  | .str s => .ok (Path.ofString s)
  | _ => .error [⟨[], .notPath⟩]

/-- A path or nothing. -/
def optionalPath : Json → Checked (Option Path)
  | .null => .ok none
  | v => (path v).map some

/-- The values of members, each a string. -/
def stringMembers : List (String × Json) → Checked (List (String × String))
  | [] => .ok []
  | (k, v) :: rest =>
    match within (.key k) (string v), stringMembers rest with
    | .ok s, .ok ms => .ok ((k, s) :: ms)
    | x, xs => .error (issues x ++ issues xs)

/-- A mapping of strings to strings. -/
def stringMap : Json → Checked (List (String × String))
  | .obj members => stringMembers members
  | _ => .error [⟨[], .notMapping⟩]

/-- The name of a known framework. -/
def framework (v : Json) : Checked Framework :=
  match string v with
  | .error is => .error is
  | .ok s =>
    match Framework.ofName? s with
    | some f => .ok f
    | none => .error [⟨[], .unknownFramework s (Framework.all.map Framework.name)⟩]

end Checked

namespace Project

/-- A project from its members; members of other names are ignored. -/
def ofMembers (members : List (String × Json)) : Checked Project :=
  let name := Checked.part ["projectName", "project_name"] none Checked.nonEmpty members
  let version := Checked.part ["version"] none Checked.nonEmpty members
  let description := Checked.part ["description"] none Checked.string members
  let author := Checked.part ["author"] none Checked.string members
  let license := Checked.part ["license"] none Checked.nonEmpty members
  match name, version, description, author, license with
  | .ok name, .ok version, .ok description, .ok author, .ok license =>
    .ok { name, version, description, author, license }
  | _, _, _, _, _ =>
    .error (name.issues ++ version.issues ++ description.issues ++ author.issues ++ license.issues)

end Project

namespace Config

/-- The language of the sources that a configuration asks for. -/
def language (c : Config) : Language := c.framework.language

/-- A configuration from its members; members of other names are ignored. -/
def ofMembers (members : List (String × Json)) : Checked Config :=
  let schemaPath := Checked.part ["schemaPath", "schema_path"] none Checked.path members
  let outputDir := Checked.part ["outputDir", "output_dir"] none Checked.path members
  let templateDir := Checked.part ["templateDir", "template_dir"] none Checked.path members
  let framework := Checked.part ["framework"] none Checked.framework members
  let project := Checked.part ["config", "project"] none
    (Checked.record .value "ProjectConfig" Project.ofMembers) members
  let cachePath := Checked.part ["cachePath", "cache_path"] (some none) Checked.optionalPath members
  let outputs := Checked.part ["outputs"] (some []) Checked.stringMap members
  let groups :=
    Checked.part ["operationGroups", "operation_groups"] (some []) Checked.stringMap members
  match schemaPath, outputDir, templateDir, framework, project, cachePath, outputs, groups with
  | .ok schemaPath, .ok outputDir, .ok templateDir, .ok framework, .ok project, .ok cachePath,
      .ok outputs, .ok groups =>
    .ok { schemaPath, outputDir, templateDir, framework, project, cachePath, outputs, groups }
  | _, _, _, _, _, _, _, _ =>
    .error (schemaPath.issues ++ outputDir.issues ++ templateDir.issues ++ framework.issues ++
      project.issues ++ cachePath.issues ++ outputs.issues ++ groups.issues)

/-- A configuration from a JSON value. -/
def ofJson (v : Json) : Checked Config :=
  Checked.record .value "GeneratorConfig" ofMembers v

end Config

end Scaffold
