/-
  What rendering gives: the full expansion of jobs.

  Jobs are rendered in order at one `Bench`: a press, and a context whose lists they share. Each job
  leaves the bench to the next (`Bench.next`), and a later text for a path takes the place of an
  earlier one. `perform_renderJobs` says that this is what rendering does, `IsExpansion.renderAll`
  that its files are the expansion of the jobs, and `renderAll_error_iff` when it fails.

  What jobs leave of a context are parts of it (`remains_after`), and all of it if no template may
  take items out of lists (`context_after`).
-/
import Scaffold.Proofs.Effect
import Scaffold.Proofs.Lending
import Scaffold.Proofs.Outputs

namespace Scaffold

/-! ## One job -/

namespace Press

variable (p : Press) (name : String) (context : Template.Scope)

theorem perform_load (dir : Path) (w : World) :
    (p.load dir).perform w =
      match (Engine.load dir).perform w with
      | (.error f, w) => (.error f, w)
      | (.ok e, w) => (.ok { p with engine := e }, w) := by
  simp only [load, Effect.perform_bind]
  rcases (Engine.load dir).perform w with ⟨f | e, w'⟩ <;> rfl

@[simp] theorem engine_render : (p.render name context).press.engine = p.engine := by
  unfold render
  split <;> rfl

/-- A template that may not take items out of lists leaves them as they were. -/
theorem left_render {p : Press} {context : Template.Scope}
    (hlib : p.engine.library.allowed .sparing = true)
    (hcontext : Template.allowedNames .sparing context = true) :
    (p.render name context).loans.left = [] := by
  unfold render
  split
  · exact Template.left_renderTo hlib hcontext Template.maxDepth name p.desk
  · rfl

/-- Rendering fails where no template has the name, or because of the template. -/
theorem render_error {p : Press} {name : String} {context : Template.Scope} {f : Failure}
    (h : (p.render name context).result = .error f) :
    f = p.engine.unknown name ∨ ∃ cause, f = Engine.unrendered name cause := by
  unfold render at h
  split at h
  · simp only [Except.mapError] at h
    split at h <;> cases h
    exact Or.inr ⟨_, rfl⟩
  · cases h
    exact Or.inl rfl

/-- A failure to render passes a step unchanged. -/
theorem guarded_of_render {p : Press} {name : String} {context : Template.Scope} {f : Failure}
    (h : (p.render name context).result = .error f) (step : String) :
    f.guarded .generator step = f := by
  rcases render_error h with rfl | ⟨cause, rfl⟩ <;> rfl

end Press

namespace Generator

/-- What jobs are rendered with: a press, and a context whose lists they share. -/
structure Bench where
  press : Press
  context : Context

/-- A generator with what jobs are rendered with. -/
def on (g : Generator) (b : Bench) : Generator :=
  { g with press := b.press, context := some b.context }

/-- A generator with rendered files, and with what their jobs have left. -/
def withFiles (g : Generator) (b : Bench) (files : List (Path × Text)) : Generator :=
  { g.on b with stage := .rendered, rendered := files }

@[simp] theorem stage_withFiles (g : Generator) (b : Bench) (files : List (Path × Text)) :
    (g.withFiles b files).stage = .rendered := rfl

namespace Bench

variable (b : Bench) (j : Job) (js more : List Job)

/-- The names that a job is given. -/
def names : Template.Scope := b.context.valuesFor j.category

/-- What a job comes to. -/
def print : Press.Print := b.press.render j.template (b.names j)

/-- What a job leaves. -/
def next : Bench := ⟨(b.print j).press, b.context.leave (b.print j).loans⟩

/-- What jobs leave. -/
def after : Bench := js.foldl next b

@[simp] theorem after_nil : b.after [] = b := rfl

@[simp] theorem after_cons : b.after (j :: js) = (b.next j).after js := rfl

theorem after_append : b.after (js ++ more) = (b.after js).after more := List.foldl_append

/-- Rendering changes no template. -/
@[simp] theorem engine_after : (b.after js).press.engine = b.press.engine := by
  induction js generalizing b with
  | nil => rfl
  | cons j js ih => exact (ih _).trans (Press.engine_render ..)

/-- What jobs leave of a context are parts of it. -/
theorem remains_after : Context.Remains b.context (b.after js).context := by
  induction js generalizing b with
  | nil => exact .refl _
  | cons j js ih => exact (Context.Remains.leave _ _).trans (ih (b.next j))

/-- Where no template may take items out of lists, the context stays as it is. -/
theorem context_after {b : Bench} (h : b.press.engine.library.allowed .sparing = true) :
    (b.after js).context = b.context := by
  induction js generalizing b with
  | nil => rfl
  | cons j js ih =>
    have hengine : (b.next j).press.engine = b.press.engine := Press.engine_render ..
    refine (ih (hengine ▸ h)).trans (Context.leave_of_left_nil ?_ _)
    exact Press.left_render _ h (Context.allowed_valuesFor _ _)

/-- A job is given names that show the context and the category that it is for, and what they show
    in the end is the context that it leaves. -/
theorem shown_names : Context.ShownFor b.context j.category (b.names j) ∧
    Context.Shown (b.print j).loans (b.next j).context (b.names j) :=
  ⟨Context.shownFor_valuesFor _ _, Context.shown_leave _ _ _⟩

/-- A job can be rendered. -/
def Renders : Prop := ∃ t, (b.print j).result = .ok t

/-! ## All jobs -/

/-- Jobs that are rendered up to the first that fails: their files, and what they leave. -/
def renderAll (b : Bench) (files : List (Path × Text)) :
    List Job → Except Failure (List (Path × Text)) × Bench
  | [] => (.ok files, b)
  | j :: rest =>
    match (b.print j).result with
    | .ok t => (b.next j).renderAll (putFile j.path t files) rest
    | .error f => (.error f, b.next j)

/-- All jobs can be rendered one after the other. -/
def RendersAll : Prop :=
  ∀ before j later, js = before ++ j :: later → (b.after before).Renders j

/-- The first job that cannot be rendered, and why. -/
def FailsFirst (f : Failure) : Prop :=
  ∃ before j later, js = before ++ j :: later ∧ b.RendersAll before ∧
    ((b.after before).print j).result = .error f

variable {b j js}

theorem rendersAll_cons : b.RendersAll (j :: js) ↔ b.Renders j ∧ (b.next j).RendersAll js := by
  constructor
  · intro h
    refine ⟨h [] j js rfl, fun before k later hjs => ?_⟩
    exact h (j :: before) k later (by rw [hjs, List.cons_append])
  · rintro ⟨hj, h⟩ before k later hjs
    cases before with
    | nil => cases hjs; exact hj
    | cons i before => cases hjs; exact h before k later rfl

theorem renderAll_cons_ok {t : Text} (h : (b.print j).result = .ok t)
    (files : List (Path × Text)) :
    b.renderAll files (j :: js) = (b.next j).renderAll (putFile j.path t files) js := by
  rw [renderAll, h]

theorem renderAll_cons_error {f : Failure} (h : (b.print j).result = .error f)
    (files : List (Path × Text)) : b.renderAll files (j :: js) = (.error f, b.next j) := by
  rw [renderAll, h]

/-- Rendering fails as the first job that fails does. -/
theorem renderAll_error_iff {files : List (Path × Text)} {f : Failure} :
    (b.renderAll files js).1 = .error f ↔ b.FailsFirst js f := by
  induction js generalizing b files with
  | nil => simp [renderAll, FailsFirst]
  | cons j js ih =>
    cases hj : (b.print j).result with
    | error g =>
      rw [renderAll_cons_error hj]
      constructor
      · rintro ⟨⟩
        exact ⟨[], j, js, rfl, fun before k later h => (by simp at h), hj⟩
      · rintro ⟨before, k, later, hjs, hbefore, hk⟩
        cases before with
        | nil => cases hjs; cases hj.symm.trans hk; rfl
        | cons i before =>
          cases hjs
          obtain ⟨t, ht⟩ := (rendersAll_cons.1 hbefore).1
          rw [hj] at ht
          cases ht
    | ok t =>
      rw [renderAll_cons_ok hj, ih]
      constructor
      · rintro ⟨before, k, later, rfl, hbefore, hk⟩
        exact ⟨j :: before, k, later, rfl, rendersAll_cons.2 ⟨⟨t, hj⟩, hbefore⟩, hk⟩
      · rintro ⟨before, k, later, hjs, hbefore, hk⟩
        cases before with
        | nil => cases hjs; rw [after_nil, hj] at hk; cases hk
        | cons i before =>
          cases hjs
          exact ⟨before, k, later, rfl, (rendersAll_cons.1 hbefore).2, hk⟩

/-- Jobs that succeed have all been rendered. -/
theorem renderAll_ok {files out : List (Path × Text)} (h : (b.renderAll files js).1 = .ok out) :
    (b.renderAll files js).2 = b.after js := by
  induction js generalizing b files with
  | nil => rfl
  | cons j js ih =>
    cases hj : (b.print j).result with
    | ok t => rw [renderAll_cons_ok hj] at h ⊢; exact ih h
    | error f => rw [renderAll_cons_error hj] at h; cases h

/-- Jobs leave what some of them leave, whether they succeed or fail. -/
theorem exists_after_renderAll (b : Bench) (files : List (Path × Text)) (js : List Job) :
    ∃ done, (b.renderAll files js).2 = b.after done := by
  induction js generalizing b files with
  | nil => exact ⟨[], rfl⟩
  | cons j js ih =>
    cases hj : (b.print j).result with
    | ok t =>
      rw [renderAll_cons_ok hj]
      obtain ⟨done, hdone⟩ := ih (b.next j) (putFile j.path t files)
      exact ⟨j :: done, hdone⟩
    | error f => rw [renderAll_cons_error hj]; exact ⟨[j], rfl⟩

theorem guarded_of_failsFirst {f : Failure} (h : b.FailsFirst js f) (step : String) :
    f.guarded .generator step = f := by
  obtain ⟨_, _, _, -, -, hj⟩ := h
  exact Press.guarded_of_render hj step

end Bench

theorem perform_renderJob (g : Generator) (b : Bench) (j : Job) (w : World) :
    (renderJob j).perform (g.on b) w = ((b.print j).result, g.on (b.next j), w) := by
  simp only [renderJob, made, on, Step.perform_bind, Step.perform_get, Step.perform_pure,
    Step.perform_modify, Step.perform_ofEffect, Effect.perform_ofResult]
  rfl

/-- **Jobs are rendered one after the other at one bench.** -/
theorem perform_renderJobs (g : Generator) (b : Bench) (files : List (Path × Text))
    (js : List Job) (w : World) :
    (renderJobs files js).perform (g.on b) w =
      ((b.renderAll files js).1, g.on (b.renderAll files js).2, w) := by
  induction js generalizing b files with
  | nil => rfl
  | cons j js ih =>
    simp only [renderJobs, Step.perform_bind, perform_renderJob]
    cases hj : (b.print j).result with
    | ok t => rw [Bench.renderAll_cons_ok hj]; exact ih (b.next j) (putFile j.path t files)
    | error f => rw [Bench.renderAll_cons_error hj]

/-! ## The files of jobs -/

/-- Files are the expansion of jobs: each job can be rendered with what those before it have left,
    each path stands once, in the order in which the paths first occur, and has the text of the last
    job for it. -/
structure IsExpansion (b : Bench) (js : List Job) (files : List (Path × Text)) : Prop where
  nodup : (files.map Prod.fst).Nodup
  paths : files.map Prod.fst = (js.map Job.path).eraseDups
  rendered : b.RendersAll js
  shown : ∀ before j later, js = before ++ j :: later →
    Context.ShownFor (b.after before).context j.category ((b.after before).names j) ∧
    Context.Shown ((b.after before).print j).loans (b.after (before ++ [j])).context
      ((b.after before).names j)
  last : ∀ f ∈ files, ∃ before j later, js = before ++ j :: later ∧ j.path = f.1 ∧
    (∀ k ∈ later, k.path ≠ f.1) ∧ ((b.after before).print j).result = .ok f.2

theorem eraseDups_concat (ps : List Path) (p : Path) :
    (ps ++ [p]).eraseDups = if p ∈ ps then ps.eraseDups else ps.eraseDups ++ [p] := by
  rw [List.eraseDups_append]
  by_cases hp : p ∈ ps
  · have : [p].removeAll ps = [] := by simp [List.removeAll, hp]
    simp [this, hp]
  · have : [p].removeAll ps = [p] := by simp [List.removeAll, hp]
    simp [this, hp, List.eraseDups_cons]

theorem putFile_paths (p : Path) (t : Text) (files : List (Path × Text)) :
    (putFile p t files).map Prod.fst =
      if p ∈ files.map Prod.fst then files.map Prod.fst else files.map Prod.fst ++ [p] := by
  induction files with
  | nil => simp [putFile]
  | cons f files ih =>
    obtain ⟨q, u⟩ := f
    by_cases hq : q = p
    · simp [putFile, hq]
    · simp only [putFile, hq, if_false, List.map_cons, ih, List.mem_cons, Ne.symm hq, false_or]
      split <;> rfl

theorem mem_putFile {p : Path} {t : Text} {files : List (Path × Text)}
    (hn : (files.map Prod.fst).Nodup) {f : Path × Text} (h : f ∈ putFile p t files) :
    f = (p, t) ∨ (f ∈ files ∧ f.1 ≠ p) := by
  induction files with
  | nil => exact Or.inl (by simpa [putFile] using h)
  | cons g files ih =>
    obtain ⟨q, u⟩ := g
    simp only [List.map_cons, List.nodup_cons] at hn
    by_cases hq : q = p
    · simp only [putFile, hq, if_true, List.mem_cons] at h
      rcases h with rfl | h
      · exact Or.inl rfl
      · refine Or.inr ⟨List.mem_cons_of_mem _ h, ?_⟩
        rintro rfl
        exact hn.1 (hq ▸ List.mem_map_of_mem h)
    · simp only [putFile, hq, if_false, List.mem_cons] at h
      rcases h with rfl | h
      · exact Or.inr ⟨List.mem_cons_self .., hq⟩
      · rcases ih hn.2 h with h | ⟨h, hne⟩
        · exact Or.inl h
        · exact Or.inr ⟨List.mem_cons_of_mem _ h, hne⟩

namespace IsExpansion

variable {b : Bench} {js : List Job} {files : List (Path × Text)}

theorem nil (b : Bench) : IsExpansion b [] [] :=
  ⟨List.nodup_nil, rfl, fun before j later h => (by simp at h),
    fun before j later h => (by simp at h), by simp⟩

/-- One more job. -/
theorem put (h : IsExpansion b js files) {j : Job} {t : Text}
    (ht : ((b.after js).print j).result = .ok t) :
    IsExpansion b (js ++ [j]) (putFile j.path t files) where
  nodup := by
    rw [putFile_paths]
    split
    · exact h.nodup
    · next hp =>
      refine List.nodup_append.2 ⟨h.nodup, by simp, ?_⟩
      rintro q hq p hp' rfl
      exact hp (List.mem_singleton.1 hp' ▸ hq)
  paths := by
    rw [putFile_paths, h.paths, List.map_append, List.map_singleton, eraseDups_concat]
    simp only [List.mem_eraseDups]
  rendered := by
    intro before k later hjs
    cases later using List.reverseRecOn with
    | nil =>
      obtain ⟨rfl, hk⟩ := List.append_inj' hjs rfl
      cases hk
      exact ⟨t, ht⟩
    | append_singleton later i =>
      rw [← List.cons_append, ← List.append_assoc] at hjs
      exact h.rendered before k later (List.append_inj' hjs rfl).1
  shown before k later _ := b.after_append before [k] ▸ Bench.shown_names _ _
  last := by
    intro f hf
    rcases mem_putFile h.nodup hf with rfl | ⟨hf, hne⟩
    · exact ⟨js, j, [], rfl, rfl, by simp, ht⟩
    · obtain ⟨before, k, later, rfl, hk, hl, hr⟩ := h.last f hf
      refine ⟨before, k, later ++ [j], by simp, hk, fun i hi => ?_, hr⟩
      rcases List.mem_append.1 hi with hi | hi
      · exact hl i hi
      · rw [List.mem_singleton.1 hi]; exact hne.symm

/-- **Rendering what is left completes the expansion.** -/
theorem renderAll (h : IsExpansion b js files) {rest : List Job} {out : List (Path × Text)}
    (hr : ((b.after js).renderAll files rest).1 = .ok out) : IsExpansion b (js ++ rest) out := by
  induction rest generalizing js files with
  | nil => cases hr; simpa using h
  | cons j rest ih =>
    cases hj : ((b.after js).print j).result with
    | ok t =>
      have hafter : b.after (js ++ [j]) = (b.after js).next j := b.after_append js [j]
      rw [Bench.renderAll_cons_ok hj, ← hafter] at hr
      simpa using ih (h.put hj) hr
    | error f => rw [Bench.renderAll_cons_error hj] at hr; cases hr

end IsExpansion

end Generator

end Scaffold
