/-
  What the steps of a generation run do.

  * A `Move` is one of the five steps with its arguments. `Moves w m g g'` says what a step does
    that succeeds in the world `w`, and `Fails w m g g'` what a step does that fails.
  * Every step does one or the other (`perform_cases`); taken at another stage than its own it is
    refused and nothing at all changes (`perform_refused`).
  * `Delivers w fs w'`: the files `fs` were written one after the other. Writing gets up to the
    first that cannot be written (`writeFiles_cases`).

  All that is proved about runs is derived from these, so no other proof looks into a step.
-/
import Scaffold.Proofs.Expansion

namespace Scaffold.Generator

/-- A step of a run with its arguments. -/
inductive Move where
  | setUp (r : Request)
  | parseSchema
  | buildContext (other : Option Supplied)
  | render
  | write

namespace Move

/-- What a step returns. -/
def Result : Move → Type
  | setUp _ => Unit
  | parseSchema => Specification
  | buildContext _ => Context
  | render => List (Path × Text)
  | write => List Path

/-- The step itself. -/
def step : (m : Move) → Step m.Result
  | setUp r => Generator.setUp r
  | parseSchema => Generator.parseSchema
  | buildContext other => Generator.buildContext other
  | render => Generator.render
  | write => Generator.write

/-- The stage that a step is taken at. -/
def source : Move → Stage
  | setUp _ => .uninitialized
  | parseSchema => .initialized
  | buildContext _ => .schemaParsed
  | render => .contextBuilt
  | write => .rendered

/-- The stage that a step leads to. -/
def target : Move → Stage
  | setUp _ => .initialized
  | parseSchema => .schemaParsed
  | buildContext _ => .contextBuilt
  | render => .rendered
  | write => .written

end Move

/-- What a step does to a generator when it succeeds in the world `w`. -/
inductive Moves (w : World) : Move → Generator → Generator → Prop
  | setUp {r c e g} : g.stage = .uninitialized → accept w.store r = .ok c →
      ((Engine.load c.templateDir).perform w).1 = .ok e →
      Moves w (.setUp r) g { g with
        press := { g.press with engine := e }, stage := .initialized, config := some c }
  | parseSchema {c s g} : g.stage = .initialized → g.config = some c →
      ((Contract.load c.schemaPath {} (cacheOf c)).perform w).1 = .ok s →
      Moves w .parseSchema g { g with stage := .schemaParsed, spec := some s }
  | buildContext {c s other x g} : g.stage = .schemaParsed → g.config = some c →
      g.spec = some s → contextOf c s other = .ok x →
      Moves w (.buildContext other) g { g with stage := .contextBuilt, context := some x }
  | render {c x js fs g} {b : Bench} : g.stage = .contextBuilt → g.config = some c →
      g.context = some x → jobs c x g.press.engine = js → b = ⟨g.press, x⟩ →
      (b.renderAll [] js).1 = .ok fs →
      Moves w .render g (g.withFiles (b.after js) fs)
  | write {c g} : g.stage = .rendered → g.config = some c →
      Moves w .write g { g with
        stage := .written, writtenFiles := g.writtenFiles ++ g.rendered.map Prod.fst }

/-- What a step does to a generator when it fails: nothing, but that a configuration that was
    accepted is kept, rendering has used the press and the context up to the job it failed on, and
    writing has reported the files before the one it failed on. -/
inductive Fails (w : World) : Move → Generator → Generator → Prop
  | same {m g} : Fails w m g g
  | setUp {r c g} : g.stage = .uninitialized → accept w.store r = .ok c →
      Fails w (.setUp r) g { g with config := some c }
  | render {x g} {done : List Job} : g.stage = .contextBuilt → g.context = some x →
      Fails w .render g (g.on (Bench.after ⟨g.press, x⟩ done))
  | write {g} {before later : List (Path × Text)} : g.stage = .rendered →
      g.rendered = before ++ later →
      Fails w .write g { g with writtenFiles := g.writtenFiles ++ before.map Prod.fst }

theorem perform_require {s : Stage} {g : Generator} (h : g.stage = s) (w : World) :
    (require s).perform g w = (.ok (), g, w) := by
  simp only [require, Step.perform_bind, Step.perform_get, h, if_true, Step.perform_pure]

theorem perform_require_ne {s : Stage} {g : Generator} (h : g.stage ≠ s) (w : World) :
    (require s).perform g w = (.error (outOfOrder s g.stage), g, w) := by
  simp only [require, Step.perform_bind, Step.perform_get, h, if_false, Step.perform_throw]

theorem perform_made {α : Type} {part : Generator → Option α} {a : α} {g : Generator}
    (h : part g = some a) (w : World) : (made part).perform g w = (.ok a, g, w) := by
  simp only [made, Step.perform_bind, Step.perform_get, h, Step.perform_pure]

theorem perform_made_none {α : Type} {part : Generator → Option α} {g : Generator}
    (h : part g = none) (w : World) : (made part).perform g w = (.error .absent, g, w) := by
  simp only [made, Step.perform_bind, Step.perform_get, h, Step.perform_throw]

@[simp] theorem perform_enter (s : Stage) (g : Generator) (w : World) :
    (enter s).perform g w = (.ok (), { g with stage := s }, w) := rfl

/-- A step that is taken at another stage than its own is refused and changes nothing. -/
theorem perform_refused {m : Move} {g : Generator} (h : g.stage ≠ m.source) (w : World) :
    m.step.perform g w = (.error (outOfOrder m.source g.stage), g, w) := by
  have hguarded {α : Type} (name : String) (rest : Unit → Step α) :
      (Step.guarded name (require m.source >>= rest)).perform g w =
        (.error (outOfOrder m.source g.stage), g, w) := by
    rw [Step.perform_guarded, Step.perform_bind, perform_require_ne h]
    rfl
  cases m <;> exact hguarded _ _

section

variable {g : Generator} {c : Config} {s : Specification} {x : Context}

/-- The world after a configuration was accepted. -/
def announced (c : Config) (w : World) : World :=
  { w with reported := ⟨.info, "Generator initialized.",
    [("project", .str c.project.name), ("framework", .str c.framework.name)]⟩ :: w.reported }

theorem perform_setUp (hg : g.stage = .uninitialized) (r : Request) (w : World) :
    (setUp r).perform g w =
      match accept w.store r with
      | .error f => (.error (f.guarded .generator "initialize"), g, w)
      | .ok c =>
        match (Engine.load c.templateDir).perform w with
        | (.error f, w) =>
          (.error (f.guarded .generator "initialize"), { g with config := some c }, w)
        | (.ok e, w) => (.ok (), { g with
            press := { g.press with engine := e }, stage := .initialized, config := some c },
          announced c w) := by
  simp only [setUp, Step.perform_guarded, Step.perform_bind, perform_require hg,
    Step.perform_ofEffect, Effect.perform_query]
  cases accept w.store r with
  | error f => rfl
  | ok c =>
    simp only [Step.perform_modify, Step.perform_get, Press.perform_load]
    rcases (Engine.load c.templateDir).perform w with ⟨f | e, w'⟩ <;> rfl

theorem perform_parseSchema (hg : g.stage = .initialized) (hc : g.config = some c) (w : World) :
    parseSchema.perform g w =
      match (Contract.load c.schemaPath {} (cacheOf c)).perform w with
      | (.error f, w) => (.error (f.guarded .generator "parse_schema"), g, w)
      | (.ok s, w) => (.ok s, { g with stage := .schemaParsed, spec := some s }, w) := by
  simp only [parseSchema, Step.perform_guarded, Step.perform_bind, perform_require hg,
    perform_made hc, Step.perform_ofEffect]
  rcases (Contract.load c.schemaPath {} (cacheOf c)).perform w with ⟨f | s, w'⟩ <;> rfl

theorem perform_buildContext (hg : g.stage = .schemaParsed) (hc : g.config = some c)
    (hs : g.spec = some s) (other : Option Supplied) (w : World) :
    (buildContext other).perform g w =
      match contextOf c s other with
      | .error f => (.error (f.guarded .generator "prepare_context"), g, w)
      | .ok x => (.ok x, { g with stage := .contextBuilt, context := some x }, w) := by
  simp only [buildContext, Step.perform_guarded, Step.perform_bind, perform_require hg,
    perform_made hc, perform_made hs, Step.perform_ofEffect, Effect.perform_ofResult]
  cases contextOf c s other <;> rfl

theorem perform_render (hg : g.stage = .contextBuilt) (hc : g.config = some c)
    (hx : g.context = some x) (w : World) :
    render.perform g w =
      match Bench.renderAll ⟨g.press, x⟩ [] (jobs c x g.press.engine) with
      | (.error f, b) => (.error (f.guarded .generator "render"), g.on b, w)
      | (.ok fs, b) => (.ok fs, g.withFiles b fs, w) := by
  have hon : g.on ⟨g.press, x⟩ = g := by rw [on, ← hx]
  have hjobs := perform_renderJobs g ⟨g.press, x⟩ [] (jobs c x g.press.engine) w
  rw [hon] at hjobs
  simp only [render, Step.perform_guarded, Step.perform_bind, perform_require hg,
    perform_made hc, perform_made hx, Step.perform_get, hjobs]
  rcases Bench.renderAll ⟨g.press, x⟩ [] (jobs c x g.press.engine) with ⟨f | fs, b⟩ <;> rfl

/-- Rendering that succeeds gives the expansion of the jobs. -/
theorem render_ok (hg : g.stage = .contextBuilt) (hc : g.config = some c)
    (hx : g.context = some x) {w w' : World} {fs : List (Path × Text)} {g' : Generator}
    (h : render.perform g w = (.ok fs, g', w')) :
    let js := jobs c x g.press.engine
    IsExpansion ⟨g.press, x⟩ js fs ∧ w' = w ∧
      g' = g.withFiles (Bench.after ⟨g.press, x⟩ js) fs := by
  intro js
  rw [perform_render hg hc hx] at h
  rcases hr : Bench.renderAll ⟨g.press, x⟩ [] js with ⟨f | fs', b⟩
  · rw [hr] at h; cases h
  · have hall := Bench.renderAll_ok (congrArg Prod.fst hr)
    rw [hr] at h hall
    cases h
    obtain rfl : b = _ := hall
    exact ⟨(IsExpansion.nil _).renderAll (congrArg Prod.fst hr), rfl, rfl⟩

/-- Rendering that fails does so as the first job that fails. -/
theorem render_error (hg : g.stage = .contextBuilt) (hc : g.config = some c)
    (hx : g.context = some x) {w w' : World} {f : Failure} {g' : Generator}
    (h : render.perform g w = (.error f, g', w')) :
    Bench.FailsFirst ⟨g.press, x⟩ (jobs c x g.press.engine) f ∧ w' = w ∧
      ∃ b, g' = g.on b := by
  rw [perform_render hg hc hx] at h
  rcases hr : Bench.renderAll ⟨g.press, x⟩ [] (jobs c x g.press.engine) with ⟨f' | fs, b⟩
  · have hfirst := Bench.renderAll_error_iff.1 (congrArg Prod.fst hr)
    rw [hr] at h
    cases h
    rw [Bench.guarded_of_failsFirst hfirst]
    exact ⟨hfirst, rfl, b, rfl⟩
  · rw [hr] at h; cases h

end

/-- Files are written one after the other. -/
inductive Delivers : World → List (Path × Text) → World → Prop
  | nil (w : World) : Delivers w [] w
  | cons {w w₁ w₂ : World} {p : Path} {t : Text} {fs : List (Path × Text)} :
      (Engine.deliver p t).perform w = (.ok (), w₁) → Delivers w₁ fs w₂ →
        Delivers w ((p, t) :: fs) w₂

/-- A generator that has reported more files. -/
def reporting (g : Generator) (fs : List (Path × Text)) : Generator :=
  { g with writtenFiles := g.writtenFiles ++ fs.map Prod.fst }

/-- Files are written up to the first that cannot be. -/
theorem writeFiles_cases (fs : List (Path × Text)) (g : Generator) (w : World) :
    (∃ w', Delivers w fs w' ∧ (writeFiles fs).perform g w = (.ok (), g.reporting fs, w')) ∨
    (∃ before p t later w₁ f w', fs = before ++ (p, t) :: later ∧ Delivers w before w₁ ∧
      (Engine.deliver p t).perform w₁ = (.error f, w') ∧
      (writeFiles fs).perform g w = (.error f, g.reporting before, w')) := by
  induction fs generalizing g w with
  | nil => exact Or.inl ⟨w, .nil w, by simp [writeFiles, reporting]⟩
  | cons f fs ih =>
    obtain ⟨p, t⟩ := f
    have hfirst (more : List (Path × Text)) : (g.reporting [(p, t)]).reporting more =
        g.reporting ((p, t) :: more) := by simp [reporting]
    simp only [writeFiles, Step.perform_bind, Step.perform_ofEffect]
    rcases hd : (Engine.deliver p t).perform w with ⟨f | u, w₁⟩
    · exact Or.inr ⟨[], p, t, fs, w, f, w₁, rfl, .nil w, hd, by simp [reporting]⟩
    · simp only [Step.perform_modify]
      rcases ih (g.reporting [(p, t)]) w₁ with
        ⟨w', hall, h⟩ | ⟨before, q, u, later, w₂, f, w', rfl, hb, hf, h⟩
      · exact Or.inl ⟨w', .cons hd hall, h.trans (by rw [hfirst])⟩
      · exact Or.inr ⟨(p, t) :: before, q, u, later, w₂, f, w', rfl, .cons hd hb, hf,
          h.trans (by rw [hfirst])⟩

section

variable {g : Generator} {c : Config}

theorem perform_write (hg : g.stage = .rendered) (hc : g.config = some c) (w : World) :
    write.perform g w =
      match (makeOutputDir c.outputDir).perform w with
      | (.error f, w) => (.error (f.guarded .generator "write"), g, w)
      | (.ok _, w) =>
        match (writeFiles g.rendered).perform g w with
        | (.error f, g, w) => (.error (f.guarded .generator "write"), g, w)
        | (.ok _, g, w) => (.ok g.writtenFiles, { g with stage := .written },
          { w with reported := ⟨.info, "Generation complete.",
            [("output_dir", .str c.outputDir.text), ("files", .int g.writtenFiles.length)]⟩ ::
              w.reported }) := by
  simp only [write, Step.perform_guarded, Step.perform_bind, perform_require hg, perform_made hc,
    Step.perform_ofEffect, Step.perform_get]
  rcases (makeOutputDir c.outputDir).perform w with ⟨f | u, w₁⟩
  · rfl
  · simp only []
    rcases (writeFiles g.rendered).perform g w₁ with ⟨f | u, g', w₂⟩ <;> rfl

theorem write_outcome (hg : g.stage = .rendered) (hc : g.config = some c) (w : World) :
    (∃ f w' before later, g.rendered = before ++ later ∧
      write.perform g w = (.error f, g.reporting before, w')) ∨
    (∃ w', write.perform g w = (.ok (g.reporting g.rendered).writtenFiles,
      { g.reporting g.rendered with stage := .written }, w')) := by
  rw [perform_write hg hc]
  rcases (makeOutputDir c.outputDir).perform w with ⟨f | u, w₁⟩
  · exact Or.inl ⟨f.guarded .generator "write", w₁, [], g.rendered, rfl, by simp [reporting]⟩
  · simp only []
    rcases writeFiles_cases g.rendered g w₁ with
      ⟨w', -, h⟩ | ⟨before, p, t, later, -, f, w', hfs, -, -, h⟩
    · rw [h]; exact Or.inr ⟨_, rfl⟩
    · rw [h]; exact Or.inl ⟨_, _, before, (p, t) :: later, hfs, rfl⟩

end

/-! ## All steps -/

/-- A step for which something is missing changes nothing. -/
theorem perform_of_missing {α : Type} {s : Stage} {g : Generator} {w : World} {rest : Step α}
    (hg : g.stage = s) (h : rest.perform g w = (.error .absent, g, w)) (name : String) :
    (Step.guarded name (require s >>= fun _ => rest)).perform g w =
      (.error (Failure.guarded .generator name .absent), g, w) := by
  simp only [Step.perform_guarded, Step.perform_bind, perform_require hg, h]
  rfl

/-- What was not made before is missing. -/
theorem perform_made_bind {α β : Type} {part : Generator → Option α} {g : Generator}
    (h : part g = none) (rest : α → Step β) (w : World) :
    (made part >>= rest).perform g w = (.error .absent, g, w) := by
  rw [Step.perform_bind, perform_made_none h]

theorem perform_made_some_bind {α β : Type} {part : Generator → Option α} {a : α} {g : Generator}
    (h : part g = some a) (rest : α → Step β) (w : World) :
    (made part >>= rest).perform g w = (rest a).perform g w := by
  rw [Step.perform_bind, perform_made h]

/-- **Every step succeeds as `Moves` says or fails as `Fails` says.** -/
theorem perform_cases (m : Move) (g : Generator) (w : World) :
    (∃ a g' w', m.step.perform g w = (.ok a, g', w') ∧ Moves w m g g') ∨
    (∃ f g' w', m.step.perform g w = (.error f, g', w') ∧ Fails w m g g') := by
  by_cases hg : g.stage = m.source
  swap
  · exact Or.inr ⟨_, _, _, perform_refused hg w, .same⟩
  have missing {f : Failure} (h : m.step.perform g w = (.error f, g, w)) :
      (∃ a g' w', m.step.perform g w = (.ok a, g', w') ∧ Moves w m g g') ∨
      (∃ f g' w', m.step.perform g w = (.error f, g', w') ∧ Fails w m g g') :=
    Or.inr ⟨_, _, _, h, .same⟩
  cases m with
  | setUp r =>
    have h := perform_setUp hg r w
    cases ha : accept w.store r with
    | error f => rw [ha] at h; exact Or.inr ⟨_, _, _, h, .same⟩
    | ok c =>
      rcases hl : (Engine.load c.templateDir).perform w with ⟨f | e, w'⟩
      · simp only [ha, hl] at h; exact Or.inr ⟨_, _, _, h, .setUp hg ha⟩
      · simp only [ha, hl] at h; exact Or.inl ⟨_, _, _, h, .setUp hg ha (by rw [hl])⟩
  | parseSchema =>
    cases hc : g.config with
    | none => exact missing (perform_of_missing hg (perform_made_bind hc _ w) "parse_schema")
    | some c =>
      have h := perform_parseSchema hg hc w
      rcases hl : (Contract.load c.schemaPath {} (cacheOf c)).perform w with ⟨f | s, w'⟩
      · rw [hl] at h; exact Or.inr ⟨_, _, _, h, .same⟩
      · rw [hl] at h; exact Or.inl ⟨_, _, _, h, .parseSchema hg hc (by rw [hl])⟩
  | buildContext other =>
    cases hs : g.spec with
    | none => exact missing (perform_of_missing hg (perform_made_bind hs _ w) "prepare_context")
    | some s =>
      cases hc : g.config with
      | none =>
        refine missing (perform_of_missing hg ?_ "prepare_context")
        exact (perform_made_some_bind hs _ w).trans (perform_made_bind hc _ w)
      | some c =>
        have h := perform_buildContext hg hc hs other w
        cases hx : contextOf c s other with
        | error f => rw [hx] at h; exact Or.inr ⟨_, _, _, h, .same⟩
        | ok x => rw [hx] at h; exact Or.inl ⟨_, _, _, h, .buildContext hg hc hs hx⟩
  | render =>
    cases hc : g.config with
    | none => exact missing (perform_of_missing hg (perform_made_bind hc _ w) "render")
    | some c =>
      cases hx : g.context with
      | none =>
        refine missing (perform_of_missing hg ?_ "render")
        exact (perform_made_some_bind hc _ w).trans (perform_made_bind hx _ w)
      | some x =>
        have h := perform_render hg hc hx w
        obtain ⟨done, hdone⟩ := Bench.exists_after_renderAll ⟨g.press, x⟩ []
          (jobs c x g.press.engine)
        rcases hr : Bench.renderAll ⟨g.press, x⟩ [] (jobs c x g.press.engine) with ⟨f | fs, b⟩
        · rw [hr] at h hdone
          obtain rfl : b = _ := hdone
          exact Or.inr ⟨_, _, _, h, .render hg hx⟩
        · have hall := Bench.renderAll_ok (congrArg Prod.fst hr)
          rw [hr] at h hall
          obtain rfl : b = _ := hall
          exact Or.inl ⟨_, _, _, h, .render hg hc hx rfl rfl (congrArg Prod.fst hr)⟩
  | write =>
    cases hc : g.config with
    | none => exact missing (perform_of_missing hg (perform_made_bind hc _ w) "write")
    | some c =>
      rcases write_outcome hg hc w with ⟨f, w', before, later, hfs, h⟩ | ⟨w', h⟩
      · exact Or.inr ⟨_, _, _, h, .write hg hfs⟩
      · exact Or.inl ⟨_, _, _, h, .write hg hc⟩

/-- A step other than writing succeeds whenever it can. -/
theorem Moves.perform {w : World} {m : Move} {g g' : Generator} (h : Moves w m g g')
    (hw : m ≠ .write) : ∃ a w', m.step.perform g w = (.ok a, g', w') := by
  cases h with
  | @setUp r c e _ hg ha hl =>
    have h := perform_setUp hg r w
    rcases hp : (Engine.load c.templateDir).perform w with ⟨r, w'⟩
    obtain rfl : r = .ok e := by rw [hp] at hl; exact hl
    simp only [ha, hp] at h
    exact ⟨_, _, h⟩
  | @parseSchema c s _ hg hc hl =>
    have h := perform_parseSchema hg hc w
    rcases hp : (Contract.load c.schemaPath {} (cacheOf c)).perform w with ⟨r, w'⟩
    obtain rfl : r = .ok s := by rw [hp] at hl; exact hl
    rw [hp] at h
    exact ⟨_, _, h⟩
  | @buildContext c s other x _ hg hc hs hx =>
    have h := perform_buildContext hg hc hs other w
    rw [hx] at h
    exact ⟨_, _, h⟩
  | @render c x js fs _ b hg hc hx hjs hb hr =>
    subst hjs hb
    have h := perform_render hg hc hx w
    have hall := Bench.renderAll_ok hr
    rcases hp : Bench.renderAll ⟨g.press, x⟩ [] (jobs c x g.press.engine) with ⟨r, b⟩
    rw [hp] at h hr hall
    obtain rfl : r = .ok fs := hr
    obtain rfl : b = _ := hall
    exact ⟨_, _, h⟩
  | write => exact absurd rfl hw

theorem perform_ok {m : Move} {g g' : Generator} {w w' : World} {a : m.Result}
    (h : m.step.perform g w = (.ok a, g', w')) : Moves w m g g' := by
  rcases perform_cases m g w with ⟨_, _, _, h', hm⟩ | ⟨_, _, _, h', -⟩
  · rw [h] at h'; cases h'; exact hm
  · rw [h] at h'; cases h'

/-- A write that succeeds reports every rendered file after what was reported before. -/
theorem write_ok {g : Generator} {w : World} {ps : List Path}
    (h : (write.perform g w).1 = .ok ps) :
    g.stage = .rendered ∧ ps = g.writtenFiles ++ g.rendered.map Prod.fst := by
  rcases hp : write.perform g w with ⟨r, g', w'⟩
  rw [hp] at h
  obtain rfl : r = .ok ps := h
  cases perform_ok (m := .write) hp with
  | @write c _ hg hc =>
    refine ⟨hg, ?_⟩
    rcases write_outcome hg hc w with ⟨_, _, _, _, -, hw⟩ | ⟨_, hw⟩ <;> rw [hw] at hp <;> cases hp
    rfl

end Scaffold.Generator
