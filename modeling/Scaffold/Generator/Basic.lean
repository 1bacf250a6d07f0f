/-
  A generation run.

  A generator goes through its stages in a fixed order: it accepts a configuration and loads the
  templates, reads the specification, builds the context, renders all outputs in memory, and writes
  them. Each step moves it from one stage to the next; a step that is taken at another stage is
  refused and changes nothing. A step that fails leaves the generator at its stage.

  All templates are given the lists of the one context. What a template takes out of them is missing
  for those that are rendered after it, and still missing when rendering is tried again.
-/
import Scaffold.Context.Values
import Scaffold.Contract.Loading
import Scaffold.Generator.Config
import Scaffold.Press

namespace Scaffold

/-! ## Stages -/

/-- How far a generation run has come. -/
inductive Stage where
  | uninitialized
  | initialized
  | schemaParsed
  | contextBuilt
  | rendered
  | written
  deriving DecidableEq

namespace Stage

/-- The name of a stage. -/
def name : Stage → String
  | uninitialized => "uninitialized"
  | initialized => "initialized"
  | schemaParsed => "schema_parsed"
  | contextBuilt => "context_built"
  | rendered => "rendered"
  | written => "written"

end Stage

/-- A generation run: its templates, its stage, and what its steps have made so far. -/
structure Generator where
  press : Press
  stage : Stage
  config : Option Config
  spec : Option Specification
  context : Option Context
  rendered : List (Path × Text)
  writtenFiles : List Path

namespace Generator

/-- A generation run that has not started. -/
def fresh (luck : Template.Luck) : Generator :=
  ⟨.fresh luck, .uninitialized, none, none, none, [], []⟩

/-! ## Steps -/

/-- A step of a generation run. -/
abbrev Step (α : Type) := ExceptT Failure (StateT Generator (StateM World)) α

namespace Step

/-- The result of a step, the generator and the world after it. -/
def perform {α : Type} (s : Step α) (g : Generator) (w : World) :
    Except Failure α × Generator × World :=
  let ((r, g), w) := s.run g w
  (r, g, w)

/-- An effect as a step. -/
def ofEffect {α : Type} (t : Effect α) : Step α := fun g w =>
  let (r, w) := t.run w
  ((r, g), w)

/-- A step every failure of which has a code. -/
def guarded {α : Type} (name : String) (s : Step α) : Step α := fun g w =>
  let ((r, g), w) := s.run g w
  ((guardStep .generator name r, g), w)

end Step

/-- The failure of a step that is taken at the wrong stage. -/
def outOfOrder (expected actual : Stage) : Failure :=
  .ofArea .generator 6 ("Generator step called out of order: expected state " ++ expected.name)
    [("expected", .str expected.name), ("actual", .str actual.name)] none

/-- Refuse a step that is taken at another stage. -/
def require (expected : Stage) : Step Unit := do
  let actual := (← get).stage
  if actual = expected then return else throw (outOfOrder expected actual)

/-- Go to a stage. -/
def enter (s : Stage) : Step Unit := modify fun g => { g with stage := s }

/-- What a step before has made. -/
def made {α : Type} (part : Generator → Option α) : Step α := do
  match part (← get) with
  | some a => return a
  | none => throw .absent

/-- Accept a configuration and load the templates. A configuration that is accepted stays, even if
    its templates cannot be loaded. -/
def setUp (r : Request) : Step Unit := Step.guarded "initialize" do
  require .uninitialized
  let config ← Step.ofEffect (Effect.query fun s => accept s r)
  modify fun g => { g with config := some config }
  let press ← Step.ofEffect ((← get).press.load config.templateDir)
  modify fun g => { g with press := press }
  enter .initialized
  Step.ofEffect (Effect.report .info "Generator initialized."
    [("project", .str config.project.name), ("framework", .str config.framework.name)])

/-- Where the specification of a configuration is kept, if anywhere. -/
def cacheOf (config : Config) : Option Cache :=
  config.cachePath.map fun path => ⟨path, config.schemaPath⟩

/-- Read the specification. -/
def parseSchema : Step Specification := Step.guarded "parse_schema" do
  require .initialized
  let config ← made Generator.config
  let spec ← Step.ofEffect (Contract.load config.schemaPath {} (cacheOf config))
  modify fun g => { g with spec := some spec }
  enter .schemaParsed
  return spec

/-- A specification that is given in place of the one that was read: already checked, or as a JSON
    value. -/
inductive Supplied where
  | checked (s : Specification)
  | raw (v : Json)

/-- The context of a specification that is given. -/
def Supplied.context (config : Config) : Supplied → Except Failure Context
  | checked s => Context.build s config
  | raw v => Context.buildFromJson v config

/-- The context of the specification that was read, unless another is given. -/
def contextOf (config : Config) (spec : Specification) : Option Supplied → Except Failure Context
  | none => Context.build spec config
  | some other => other.context config

/-- Build the context, of the specification that was read unless another is given. -/
def buildContext (other : Option Supplied) : Step Context := Step.guarded "prepare_context" do
  require .schemaParsed
  let spec ← made Generator.spec
  let config ← made Generator.config
  let context ← Step.ofEffect (Effect.ofResult (contextOf config spec other))
  modify fun g => { g with context := some context }
  enter .contextBuilt
  return context

/-- Build the context, of the specification that was read unless a JSON value is given. -/
def prepareContext (other : Option Json) : Step Context := buildContext (other.map .raw)

/-! ## Rendering -/

/-- What stands for the category in the path of an output. -/
def placeholder : List Char := "\x7bcategory\x7d".toList

/-- A text to be rendered: the template, where the text goes, and the category that it is for, if it
    is for one. -/
structure Job where
  template : String
  path : Path
  category : Option String

/-- The outputs of a configuration: the templates and their paths. Without any, every template is
    an output with its own name for a path. -/
def outputs (config : Config) (engine : Engine) : List (String × String) :=
  if config.outputs.isEmpty then engine.names.map fun n => (n, n) else config.outputs

/-- The jobs of an output: one for each category if its path has a place for that, else one. -/
def jobsOf (config : Config) (context : Context) (output : String × String) : List Job :=
  let path := output.2.toList
  if Text.occursIn placeholder path then
    context.categories.map fun g =>
      let path := String.ofList (Text.replace placeholder g.1.toList none path)
      ⟨output.1, config.outputDir.join path, some g.1⟩
  else [⟨output.1, config.outputDir.join output.2, none⟩]

/-- Everything that is to be rendered. -/
def jobs (config : Config) (context : Context) (engine : Engine) : List Job :=
  (outputs config engine).flatMap (jobsOf config context)

/-- Give a path a text; a path that has one keeps its place. -/
def putFile (p : Path) (t : Text) : List (Path × Text) → List (Path × Text)
  | [] => [(p, t)]
  | (q, u) :: rest => if q = p then (q, t) :: rest else (q, u) :: putFile p t rest

/-- Render one job. What its template takes out of the context is gone, even if it fails. -/
def renderJob (j : Job) : Step Text := do
  let context ← made Generator.context
  let print := (← get).press.render j.template (context.valuesFor j.category)
  modify fun g => { g with press := print.press, context := some (context.leave print.loans) }
  Step.ofEffect (Effect.ofResult print.result)

/-- Render jobs one after the other, adding to the files rendered before. -/
def renderJobs (files : List (Path × Text)) : List Job → Step (List (Path × Text))
  | [] => return files
  | j :: rest => do
    let t ← renderJob j
    renderJobs (putFile j.path t files) rest

/-- Render all outputs in memory. -/
def render : Step (List (Path × Text)) := Step.guarded "render" do
  require .contextBuilt
  let config ← made Generator.config
  let context ← made Generator.context
  let files ← renderJobs [] (jobs config context (← get).press.engine)
  modify fun g => { g with rendered := files }
  enter .rendered
  return files

/-! ## Writing -/

/-- Write files one after the other; the first failure ends the writing. -/
def writeFiles : List (Path × Text) → Step Unit
  | [] => return
  | (path, text) :: rest => do
    Step.ofEffect (Engine.deliver path text)
    modify fun g => { g with writtenFiles := g.writtenFiles ++ [path] }
    writeFiles rest

/-- Make the output directory. -/
def makeOutputDir (path : Path) : Effect Unit := do
  match ← Effect.outcome (Effect.makeDirs path) with
  | .ok _ => return
  | .error f =>
    if f.isFile then
      throw (.ofArea .generator 5 "Failed to create output directory" [("path", .str path.text)]
        (some f))
    else throw f

/-- Write the rendered files. -/
def write : Step (List Path) := Step.guarded "write" do
  require .rendered
  let config ← made Generator.config
  Step.ofEffect (makeOutputDir config.outputDir)
  writeFiles (← get).rendered
  enter .written
  let paths := (← get).writtenFiles
  Step.ofEffect (Effect.report .info "Generation complete."
    [("output_dir", .str config.outputDir.text), ("files", .int paths.length)])
  return paths

/-- Render all outputs and write them. -/
def generate : Step (List Path) := do
  let _ ← render
  write

/-- Take all steps one after the other. -/
def run (r : Request) : Step (List Path) := do
  setUp r
  let _ ← parseSchema
  let _ ← buildContext none
  generate

end Generator

end Scaffold
