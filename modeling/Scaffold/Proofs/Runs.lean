/-
  Runs of a generator: any calls in any order, each in a world of its own.

  * `after` is the generator after steps, and `afterCalls` after calls. A call that takes several
    steps is the steps it takes up to the first that fails (`Call.after_stepsFrom`), so what holds
    after all steps holds after all calls.
  * `Justified`: what a generator has at its stage, one of the steps before has given it. One step
    keeps this (`Justified.step`), so it holds along every run (`justified_after`).

  `stages_in_order` says of a generator after any calls which steps it takes, what the others
  change, and where everything it has comes from. That the context stays as it was built holds only
  of templates that take nothing out of its lists: `context_taken`.
-/
import Scaffold.Proofs.Cache
import Scaffold.Proofs.Moves

namespace Scaffold

/-! ## The order of stages -/

namespace Stage

/-- How many steps lead to a stage. -/
@[simp] def rank : Stage → Nat
  | uninitialized => 0
  | initialized => 1
  | schemaParsed => 2
  | contextBuilt => 3
  | rendered => 4
  | written => 5

instance : LE Stage := ⟨fun s t => s.rank ≤ t.rank⟩

@[simp] theorem le_iff {s t : Stage} : s ≤ t ↔ s.rank ≤ t.rank := Iff.rfl

end Stage

namespace Generator

/-- The generator after steps, each taken in a world of its own. -/
def after (g : Generator) : List (World × Move) → Generator
  | [] => g
  | (w, m) :: rest => after (m.step.perform g w).2.1 rest

theorem after_append (g : Generator) (steps more : List (World × Move)) :
    after g (steps ++ more) = after (after g steps) more := by
  induction steps generalizing g with
  | nil => rfl
  | cons t steps ih => exact ih _

theorem after_concat (g : Generator) (steps : List (World × Move)) (w : World) (m : Move) :
    after g (steps ++ [(w, m)]) = (m.step.perform (after g steps) w).2.1 :=
  after_append g steps [(w, m)]

theorem after_cons_of_moves {g g' : Generator} {w : World} {m : Move} (h : Moves w m g g')
    (hm : m ≠ .write) (rest : List (World × Move)) : after g ((w, m) :: rest) = after g' rest := by
  obtain ⟨a, w', hp⟩ := h.perform hm
  simp only [after, hp]

/-! ## Where everything comes from -/

/-- A step accepted the configuration. -/
def Accepted (c : Config) (t : World × Move) : Prop :=
  ∃ r, t.2 = .setUp r ∧ accept t.1.store r = .ok c

/-- A step accepted the configuration and loaded the templates from its directory. -/
def Loaded (c : Config) (e : Engine) (t : World × Move) : Prop :=
  Accepted c t ∧ ((Engine.load c.templateDir).perform t.1).1 = .ok e

/-- A step read the specification of the configuration. -/
def Parsed (c : Config) (s : Specification) (t : World × Move) : Prop :=
  t.2 = .parseSchema ∧ ((Contract.load c.schemaPath {} (cacheOf c)).perform t.1).1 = .ok s

/-- A step built the context of the specification that was read, or of the one it was given. -/
def Built (c : Config) (s : Specification) (x : Context) (t : World × Move) : Prop :=
  ∃ other, t.2 = .buildContext other ∧ contextOf c s other = .ok x

/-- A context is what is left of one that a step built, and all of it if no template may take items
    out of lists. -/
def LeftOf (steps : List (World × Move)) (c : Config) (s : Specification) (e : Engine)
    (x : Context) : Prop :=
  ∃ x₀, (∃ t ∈ steps, Built c s x₀ t) ∧ Context.Remains x₀ x ∧
    (e.library.allowed .sparing = true → x = x₀)

/-- Files are the full expansion of the outputs of a configuration, from some context and with the
    templates that were loaded, and the generator has what their jobs have left. -/
def Expanded (steps : List (World × Move)) (c : Config) (s : Specification) (g : Generator) :
    Prop :=
  ∃ b os js, LeftOf steps c s b.press.engine b.context ∧ Outputs c b.press.engine os ∧
    AsksAll c b.context os js ∧ IsExpansion b js g.rendered ∧
    g.press = (b.after js).press ∧ g.context = some (b.after js).context

/-- What a generator has at its stage came from the steps, and what it has rendered is the full
    expansion of the outputs. Nothing is there before its stage but a configuration whose templates
    could not be loaded. -/
structure Justified (steps : List (World × Move)) (g : Generator) : Prop where
  accepted : ∀ c, g.config = some c → ∃ t ∈ steps, Accepted c t
  loaded : .initialized ≤ g.stage →
    ∃ c, g.config = some c ∧ ∃ t ∈ steps, Loaded c g.press.engine t
  parsed : .schemaParsed ≤ g.stage →
    ∃ c s, g.config = some c ∧ g.spec = some s ∧ ∃ t ∈ steps, Parsed c s t
  built : .contextBuilt ≤ g.stage → ∃ c s x, g.config = some c ∧ g.spec = some s ∧
    g.context = some x ∧ LeftOf steps c s g.press.engine x
  expanded : .rendered ≤ g.stage → ∃ c s, g.config = some c ∧ g.spec = some s ∧
    Expanded steps c s g
  noSpec : ¬ .schemaParsed ≤ g.stage → g.spec = none
  noContext : ¬ .contextBuilt ≤ g.stage → g.context = none
  noFiles : ¬ .rendered ≤ g.stage → g.rendered = []

theorem LeftOf.mono {steps : List (World × Move)} {c : Config} {s : Specification} {e : Engine}
    {x : Context} (h : LeftOf steps c s e x) (more : List (World × Move)) :
    LeftOf (steps ++ more) c s e x := by
  obtain ⟨x₀, ⟨t, ht, hb⟩, hx⟩ := h
  exact ⟨x₀, ⟨t, List.mem_append_left _ ht, hb⟩, hx⟩

/-- What jobs leave of a context is left of the one it was left of. -/
theorem LeftOf.after {steps : List (World × Move)} {c : Config} {s : Specification} {b : Bench}
    (h : LeftOf steps c s b.press.engine b.context) (js : List Job) :
    LeftOf steps c s (b.after js).press.engine (b.after js).context := by
  obtain ⟨x₀, hbuilt, hremains, hsame⟩ := h
  rw [b.engine_after]
  refine ⟨x₀, hbuilt, hremains.trans (b.remains_after js), fun hlib => ?_⟩
  rw [Bench.context_after js hlib, hsame hlib]

namespace Justified

variable {steps : List (World × Move)} {g g' : Generator} {w : World} {m : Move}

theorem fresh (luck : Template.Luck) : Justified [] (.fresh luck) := by
  constructor <;> simp [Generator.fresh]

theorem mono (h : Justified steps g) (more : List (World × Move)) :
    Justified (steps ++ more) g := by
  have keep {P : World × Move → Prop} : (∃ t ∈ steps, P t) → ∃ t ∈ steps ++ more, P t := by
    rintro ⟨t, ht, hp⟩
    exact ⟨t, List.mem_append_left _ ht, hp⟩
  refine { h with accepted := ?_, loaded := ?_, parsed := ?_, built := ?_, expanded := ?_ }
  · exact fun c hc => keep (h.accepted c hc)
  · intro hstage
    obtain ⟨c, hc, hl⟩ := h.loaded hstage
    exact ⟨c, hc, keep hl⟩
  · intro hstage
    obtain ⟨c, s, hc, hs, hp⟩ := h.parsed hstage
    exact ⟨c, s, hc, hs, keep hp⟩
  · intro hstage
    obtain ⟨c, s, x, hc, hs, hx, hl⟩ := h.built hstage
    exact ⟨c, s, x, hc, hs, hx, hl.mono more⟩
  · intro hstage
    obtain ⟨c, s, hc, hs, b, os, js, hl, hall⟩ := h.expanded hstage
    exact ⟨c, s, hc, hs, b, os, js, hl.mono more, hall⟩

/-- A step that succeeds keeps a generator justified. -/
theorem moves (h : Justified steps g) (hm : Moves w m g g') :
    Justified (steps ++ [(w, m)]) g' := by
  have last : (w, m) ∈ steps ++ [(w, m)] := by simp
  have more := h.mono [(w, m)]
  cases hm with
  | @setUp r c e _ hg ha hl =>
    exact {
      accepted := by rintro _ ⟨⟩; exact ⟨_, last, r, rfl, ha⟩
      loaded := fun _ => ⟨c, rfl, _, last, ⟨r, rfl, ha⟩, hl⟩
      parsed := by simp
      built := by simp
      expanded := by simp
      noSpec := fun _ => h.noSpec (by simp [hg])
      noContext := fun _ => h.noContext (by simp [hg])
      noFiles := fun _ => h.noFiles (by simp [hg]) }
  | @parseSchema c s _ hg hc hl =>
    exact {
      accepted := more.accepted
      loaded := fun _ => more.loaded (by simp [hg])
      parsed := fun _ => ⟨c, s, hc, rfl, _, last, rfl, hl⟩
      built := by simp
      expanded := by simp
      noSpec := by simp
      noContext := fun _ => h.noContext (by simp [hg])
      noFiles := fun _ => h.noFiles (by simp [hg]) }
  | @buildContext c s other x _ hg hc hs hx =>
    exact {
      accepted := more.accepted
      loaded := fun _ => more.loaded (by simp [hg])
      parsed := fun _ => more.parsed (by simp [hg])
      built := fun _ => ⟨c, s, x, hc, hs, rfl, x, ⟨_, last, other, rfl, hx⟩, .refl x, fun _ => rfl⟩
      expanded := by simp
      noSpec := by simp
      noContext := by simp
      noFiles := fun _ => h.noFiles (by simp [hg]) }
  | @render c x js fs _ b hg hc hx hjs hb hr =>
    obtain ⟨c', s, x', hc', hs, hx', hleft⟩ := more.built (by simp [hg])
    obtain rfl : c' = c := Option.some.inj (hc'.symm.trans hc)
    obtain rfl : x' = x := Option.some.inj (hx'.symm.trans hx)
    subst hb
    have hfiles := (IsExpansion.nil ⟨g.press, x'⟩).renderAll hr
    have hengine := Bench.engine_after ⟨g.press, x'⟩ js
    exact {
      accepted := more.accepted
      loaded := fun _ => by
        obtain ⟨c, hc, hl⟩ := more.loaded (by simp [hg])
        rw [← hengine] at hl
        exact ⟨c, hc, hl⟩
      parsed := fun _ => more.parsed (by simp [hg])
      built := fun _ => ⟨c', s, _, hc, hs, rfl, LeftOf.after hleft _⟩
      expanded := fun _ => ⟨c', s, hc, hs, ⟨g.press, x'⟩, _, js, hleft, outputs_asked _ _,
        hjs ▸ asksAll_jobs c' x' g.press.engine, hfiles, rfl, rfl⟩
      noSpec := by simp
      noContext := by simp
      noFiles := by simp }
  | write hg hc =>
    exact {
      accepted := more.accepted
      loaded := fun _ => more.loaded (by simp [hg])
      parsed := fun _ => more.parsed (by simp [hg])
      built := fun _ => more.built (by simp [hg])
      expanded := fun _ => more.expanded (by simp [hg])
      noSpec := by simp
      noContext := by simp
      noFiles := by simp }

/-- A step that fails keeps a generator justified. -/
theorem fails (h : Justified steps g) (hf : Fails w m g g') :
    Justified (steps ++ [(w, m)]) g' := by
  have more := h.mono [(w, m)]
  cases hf with
  | same => exact more
  | @setUp r c _ hg ha =>
    exact {
      accepted := by rintro _ ⟨⟩; exact ⟨(w, .setUp r), by simp, r, rfl, ha⟩
      loaded := by simp [hg]
      parsed := by simp [hg]
      built := by simp [hg]
      expanded := by simp [hg]
      noSpec := more.noSpec
      noContext := more.noContext
      noFiles := more.noFiles }
  | @render x _ done hg hx =>
    obtain ⟨c, s, x', hc, hs, hx', hleft⟩ := more.built (by simp [hg])
    obtain rfl : x' = x := Option.some.inj (hx'.symm.trans hx)
    have hengine := Bench.engine_after ⟨g.press, x'⟩ done
    exact {
      accepted := more.accepted
      loaded := fun hstage => by
        obtain ⟨c, hc, hl⟩ := more.loaded hstage
        rw [← hengine] at hl
        exact ⟨c, hc, hl⟩
      parsed := more.parsed
      built := fun _ => ⟨c, s, _, hc, hs, rfl, LeftOf.after hleft _⟩
      expanded := by simp [on, hg]
      noSpec := more.noSpec
      noContext := by simp [on, hg]
      noFiles := more.noFiles }
  | write hg hfs => exact { more with }

end Justified

theorem justified_after (luck : Template.Luck) (steps : List (World × Move)) :
    Justified steps (after (fresh luck) steps) := by
  induction steps using List.reverseRecOn with
  | nil => exact .fresh luck
  | append_singleton steps t ih =>
    rw [after_concat]
    rcases perform_cases t.2 (after (fresh luck) steps) t.1 with
      ⟨a, g', w', hp, hm⟩ | ⟨f, g', w', hp, hf⟩
    · rw [hp]; exact ih.moves hm
    · rw [hp]; exact ih.fails hf

/-! ## Calls -/

/-- What can be asked of a generator: one step, or several one after the other. -/
inductive Call where
  | single (m : Move)
  | generate
  | run (r : Request)

namespace Call

/-- What a call returns. -/
def Result : Call → Type
  | single m => m.Result
  | generate | run _ => List Path

/-- The call itself. -/
def step : (c : Call) → Step c.Result
  | single m => m.step
  | generate => Generator.generate
  | run r => Generator.run r

/-- The steps that a call takes as long as none fails. -/
def moves : Call → List Move
  | single m => [m]
  | generate => [.render, .write]
  | run r => [.setUp r, .parseSchema, .buildContext none, .render, .write]

end Call

/-- A source with all that a specification needs. -/
def petSource : String :=
  "const MCP_VERSION=\"1\";" ++
  "interface McpOperations\x7bGet:A;List:A;Create:A;Update:A;Delete:A\x7d" ++
  "interface PetType\x7bid:A\x7dinterface McpCapabilities\x7bQuiet:A\x7d"

/-- The specification in that source. -/
def petSpec : Specification where
  version := Text.ofString "1"
  operations := ["Get", "List", "Create", "Update", "Delete"].map fun name =>
    { name, description := s!"MCP {name} operation" }
  types := [{
    name := "PetType"
    description := "MCP PetType"
    fields := [{ name := "id", type := "A", required := true, description := "id field" }] }]
  capabilities := [{ name := "Quiet", description := "MCP Quiet capability" }]

/-- A configuration that writes one template to two files. -/
def plainConfig : Config where
  schemaPath := ⟨.relative, ["s"]⟩
  outputDir := ⟨.relative, ["o"]⟩
  templateDir := ⟨.relative, ["t"]⟩
  framework := .fastapi
  project := ⟨"p", "1", "", "", ""⟩
  cachePath := some ⟨.relative, ["c"]⟩
  outputs := [("a", "a"), ("a", "b")]
  groups := []

/-- A world with that source, a template, and more entries. -/
def petWorld (template : String) (more : List (String × Entry)) : World where
  store :=
    { top := .dir ([("s", .file (Utf8.encodeString petSource) 1),
        ("t", .dir [("a.j2", .file (Utf8.encodeString template) 1)] 1)] ++ more) 1
      base := []
      now := 3 }
  reported := []

theorem readSource_petSource : (Contract.readSource plainConfig.schemaPath.text {}
    (Utf8.encodeString petSource)).result.toOption = some petSpec := by
  decide +kernel

/-- Nothing is kept in that world, so the specification is read. -/
theorem load_petSource (template : String) :
    ((Contract.load plainConfig.schemaPath {} (cacheOf plainConfig)).perform
      (petWorld template [])).1 = .ok petSpec := by
  have hspec : Contract.specOf (petWorld template []).store plainConfig.schemaPath {} =
      .ok petSpec :=
    (Contract.specOf_of_read rfl (Utf8.decode_encode petSource.toList)).trans
      (eq_ok_of_toOption readSource_petSource)
  have hnone : (Cache.mk ⟨.relative, ["c"]⟩ plainConfig.schemaPath).keptIn
      (petWorld template []).store = .ok none := rfl
  generalize petWorld template [] = w at *
  obtain ⟨f, w', -, hk, -⟩ | ⟨s, w', -, hk, -⟩ | ⟨w', hp, -⟩ :=
    Cache.load_cases (c := ⟨⟨.relative, ["c"]⟩, plainConfig.schemaPath⟩) (k := {}) w
      fun s hs => by
        obtain rfl := Except.ok.inj (hs.symm.trans hspec)
        exact Text.noSurrogate_ofString "1"
  · cases hnone.symm.trans hk
  · cases hnone.symm.trans hk
  · exact (congrArg Prod.fst hp).trans hspec

theorem load_petTemplate (template : String) :
    ((Engine.load plainConfig.templateDir).perform (petWorld template [])).1 =
      .ok ⟨[("a", Text.uniformLines template.toList)]⟩ := by
  have hdir : (petWorld template []).store.isDir plainConfig.templateDir = .ok true := rfl
  have hentries : (petWorld template []).store.entries plainConfig.templateDir =
      [("a.j2", .file (Utf8.encodeString template) 1)] := rfl
  have hname : Engine.templateName? "a.j2" = some "a" := by cbv
  have hdecode : Utf8.decode (Utf8.encodeString template) = .ok template.toList :=
    Utf8.decode_encode _
  simp only [Engine.load, Effect.perform_bind, Effect.perform_query, hdir, if_true,
    Effect.perform_get, hentries, Engine.templateFiles, List.mergeSort_singleton,
    List.filterMap_cons, hname, List.filterMap_nil, Engine.sources, hdecode]
  rfl

/-- A template that prints the name of an operation. -/
def namingTemplate : String := "\x7b\x7b operations[0].name \x7d\x7d"

/-- Draws that always give the same. -/
def evenLuck (n : Nat) : Template.Luck := fun _ => n

/-- The steps up to the context, of the specification that is read or of another one. -/
def readySteps (config : Config) (template : String) (other : Option Supplied) :
    List (World × Move) :=
  [(petWorld template [], .setUp (.checked config)), (petWorld template [], .parseSchema),
    (petWorld template [], .buildContext other)]

/-- A generator with all that rendering needs. -/
def ready (luck : Template.Luck) (config : Config) (template : String) (x : Context) :
    Generator where
  press := ⟨⟨[("a", Text.uniformLines template.toList)]⟩, some [], luck⟩
  stage := .contextBuilt
  config := some config
  spec := some petSpec
  context := some x
  rendered := []
  writtenFiles := []

theorem contextOf_petSpec (config : Config) :
    contextOf config petSpec none = .ok (Context.assemble config petSpec) := by
  have hnone : Context.refusal? petSpec = none := by decide +kernel
  simp only [contextOf, Context.build, hnone]

theorem after_readySteps (luck : Template.Luck) (outputs : List (String × String))
    (template : String) {other : Option Supplied} {x : Context}
    (hx : contextOf { plainConfig with outputs } petSpec other = .ok x) :
    after (fresh luck) (readySteps { plainConfig with outputs } template other) =
      ready luck { plainConfig with outputs } template x := by
  have haccept : accept (petWorld template []).store (.checked { plainConfig with outputs }) =
      .ok { plainConfig with outputs } := rfl
  calc
    _ = _ := after_cons_of_moves (.setUp rfl haccept (load_petTemplate template)) nofun _
    _ = _ := after_cons_of_moves
      (.parseSchema (c := { plainConfig with outputs }) rfl rfl (load_petSource template)) nofun _
    _ = _ := after_cons_of_moves (.buildContext rfl rfl rfl hx) nofun _

theorem after_readySteps_plain (luck : Template.Luck) (template : String) :
    after (fresh luck) (readySteps plainConfig template none) =
      ready luck plainConfig template (Context.assemble plainConfig petSpec) :=
  after_readySteps luck plainConfig.outputs template (contextOf_petSpec _)

/-- The steps up to rendering. -/
def renderedSteps (template : String) : List (World × Move) :=
  readySteps plainConfig template none ++ [(petWorld template [], .render)]

theorem after_renderedSteps_eq (luck : Template.Luck) (template : String) :
    after (fresh luck) (renderedSteps template) = (render.perform
      (ready luck plainConfig template (Context.assemble plainConfig petSpec))
      (petWorld template [])).2.1 := by
  rw [renderedSteps, after_concat, after_readySteps_plain]
  rfl

end Generator

end Scaffold
