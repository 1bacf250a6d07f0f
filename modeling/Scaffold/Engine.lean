/-
  The templates of a directory.

  A template is a file whose name ends with `.j2`; it is known by its name without that ending.
  Templates are read all at once by `Engine.load`; rendering does not use the file store.
-/
import Scaffold.Effect
import Scaffold.Template.Render
import Scaffold.Text.Order

namespace Scaffold

/-- The templates that have been loaded. -/
structure Engine where
  library : Template.Library

namespace Engine

/-- No templates. -/
def empty : Engine := ⟨[]⟩

/-- The names of the templates in order. -/
def names (e : Engine) : List String := (e.library.map (·.1)).mergeSort Text.notAfter

/-- Whether a template has a name. -/
def has (e : Engine) (name : String) : Bool := e.library.any (·.1 == name)

/-- The name of the template in a file of a name: what stands before a last `.j2`, if anything
    does. -/
def templateName? (file : String) : Option String :=
  match file.toList.reverse with
  | '2' :: 'j' :: '.' :: base => if base.isEmpty then none else some (String.ofList base.reverse)
  | _ => none

/-- The template files among the entries of a directory, ordered by file name. -/
def templateFiles (entries : List (String × Entry)) : List (String × List UInt8) :=
  ((entries.mergeSort fun a b => Text.notAfter a.1 b.1).filterMap fun e =>
    match templateName? e.1, e.2 with
    | some name, .file bytes _ => some (name, bytes)
    | _, _ => none)

/-- The sources of template files, or why the first that is no UTF-8 is none. -/
def sources : List (String × List UInt8) → Except Utf8.Fault Template.Library
  | [] => .ok []
  | (name, bytes) :: rest =>
    match Utf8.decode bytes with
    | .error f => .error f
    | .ok cs =>
      match sources rest with
      | .error f => .error f
      | .ok more => .ok ((name, Text.uniformLines cs) :: more)

/-- The templates of a directory. -/
def load (dir : Path) : Effect Engine := do
  if ← Effect.query (·.isDir dir) then
    let entries := (← get).store.entries dir
    match sources (templateFiles entries) with
    | .error f =>
      throw (.ofArea .generator 2 "Failed to read template directory" [("path", .str dir.text)]
        (some (.undecodable f)))
    | .ok library =>
      let e : Engine := ⟨library⟩
      Effect.report .debug "Loaded templates."
        [("directory", .str dir.text), ("templates", .arr (e.names.map .str))]
      return e
  else
    throw (.ofArea .generator 2 "Template directory not found" [("path", .str dir.text)] none)

/-- The failure for a name that no template has. -/
def unknown (e : Engine) (name : String) : Failure :=
  .ofArea .generator 3 ("Template not found: " ++ name)
    [("template", .str name), ("available", .arr (e.names.map .str))] none

/-- The failure for a template that cannot be rendered. -/
def unrendered (name : String) (f : TemplateFault) : Failure :=
  .ofArea .generator 4 ("Failed to render template: " ++ name) [("template", .str name)]
    (some (.template f))

/-- Write a text to a file; the file is emptied before a text without UTF-8 is met. -/
def writeText (path : Path) (content : Text) : Effect Nat := do
  Effect.makeDirs path.parent
  match content.chars? with
  | some cs =>
    let bytes := Utf8.encode cs
    Effect.write path bytes
    return bytes.length
  | none =>
    Effect.write path []
    throw .unencodable

/-- Write a text to a file exactly, after making the directories above it. -/
def deliver (path : Path) (content : Text) : Effect Unit := do
  match ← Effect.outcome (writeText path content) with
  | .ok count =>
    Effect.report .info "Generated file." [("path", .str path.text), ("bytes", .int count)]
  | .error f =>
    if f.isFile then
      throw (.ofArea .generator 5 "Failed to write generated file" [("path", .str path.text)]
        (some f))
    else throw f

end Engine

end Scaffold
