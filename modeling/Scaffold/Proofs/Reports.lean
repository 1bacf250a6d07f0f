/-
  Which files a run reports as written.

  A write that succeeds reports what the writes before it have reported, and then every rendered
  file. So each file is reported once exactly when no write before has broken off, that is, failed
  after it had reported some files: `write_reports` says this of every run, and `retriedSteps` is a
  run in which a file is reported twice.

  The invariant is `Reported`: before anything is rendered nothing is reported, and from then on
  what is reported are parts from the start of the rendered files, none if no write broke off.
-/
import Scaffold.Proofs.Runs

namespace Scaffold.Generator

variable {luck : Template.Luck}

/-- A write after the steps fails when it has already reported files. -/
def BreaksOff (luck : Template.Luck) (steps : List (World × Move)) (w : World) : Prop :=
  (∃ f, (write.perform (after (fresh luck) steps) w).1 = .error f) ∧
    (write.perform (after (fresh luck) steps) w).2.1.writtenFiles ≠
      (after (fresh luck) steps).writtenFiles

/-- One of the steps is a write that breaks off. -/
def FailedPartWay (luck : Template.Luck) (steps : List (World × Move)) : Prop :=
  ∃ before w later, steps = before ++ (w, .write) :: later ∧ BreaksOff luck before w

theorem not_failedPartWay_nil : ¬ FailedPartWay luck [] := by
  rintro ⟨before, w, later, h, -⟩
  exact List.append_ne_nil_of_right_ne_nil _ (List.cons_ne_nil _ _) h.symm

theorem failedPartWay_concat (luck : Template.Luck) (steps : List (World × Move)) (w : World)
    (m : Move) :
    FailedPartWay luck (steps ++ [(w, m)]) ↔
      FailedPartWay luck steps ∨ (m = .write ∧ BreaksOff luck steps w) := by
  constructor
  · rintro ⟨before, w₁, later, h, hb⟩
    cases later using List.reverseRecOn with
    | nil =>
      obtain ⟨rfl, ht⟩ := List.append_inj' h rfl
      cases ht
      exact Or.inr ⟨rfl, hb⟩
    | append_singleton later t =>
      rw [← List.cons_append, ← List.append_assoc] at h
      exact Or.inl ⟨before, w₁, later, (List.append_inj' h rfl).1, hb⟩
  · rintro (⟨before, w₁, later, rfl, hb⟩ | ⟨rfl, hb⟩)
    · exact ⟨before, w₁, later ++ [(w, m)], by simp, hb⟩
    · exact ⟨steps, w, [], rfl, hb⟩

/-! ## What is reported -/

/-- What is reported before a write succeeds. -/
structure Reported (luck : Template.Luck) (steps : List (World × Move)) (g : Generator) : Prop where
  before : ¬ .rendered ≤ g.stage → g.writtenFiles = [] ∧ ¬ FailedPartWay luck steps
  rendered : g.stage = .rendered →
    ∃ parts : List (List Path), g.writtenFiles = parts.flatten ∧
      (∀ part ∈ parts, part ≠ [] ∧ part <+: g.rendered.map Prod.fst) ∧
      (parts = [] ↔ ¬ FailedPartWay luck steps)

namespace Reported

variable {steps : List (World × Move)} {w : World} {m : Move} {g g' : Generator}

/-- A step that breaks nothing off and changes neither stage nor files keeps `Reported`. -/
theorem same (h : Reported luck steps g) (hb : ¬ (m = .write ∧ BreaksOff luck steps w))
    (hstage : g'.stage = g.stage) (hrendered : g'.rendered = g.rendered)
    (hwritten : g'.writtenFiles = g.writtenFiles) : Reported luck (steps ++ [(w, m)]) g' := by
  have hc : FailedPartWay luck (steps ++ [(w, m)]) ↔ FailedPartWay luck steps := by
    rw [failedPartWay_concat, or_iff_left hb]
  constructor
  · simpa only [hc, hstage, hwritten] using h.before
  · simpa only [hc, hstage, hrendered, hwritten] using h.rendered

/-- A step that succeeds keeps `Reported`. -/
theorem moves (h : Reported luck steps g) (hm : Moves w m g g') :
    Reported luck (steps ++ [(w, m)]) g' := by
  have hc := failedPartWay_concat luck steps w m
  cases hm with
  | setUp hg | parseSchema hg | buildContext hg =>
    have hbefore := h.before (by simp [hg])
    exact ⟨fun _ => ⟨hbefore.1, by rw [hc]; simpa using hbefore.2⟩, by simp⟩
  | render hg =>
    have hbefore := h.before (by simp [hg])
    refine ⟨by simp, fun _ => ⟨[], hbefore.1, by simp, ?_⟩⟩
    rw [hc]
    simpa using hbefore.2
  | write => exact ⟨by simp, by simp⟩

/-- A step that fails keeps `Reported`; a write that breaks off adds a part. -/
theorem fails (h : Reported luck steps g) (hf : Fails w m g g')
    (hb : m = .write → (BreaksOff luck steps w ↔ g'.writtenFiles ≠ g.writtenFiles)) :
    Reported luck (steps ++ [(w, m)]) g' := by
  have hsame (hw : g'.writtenFiles = g.writtenFiles) : ¬ (m = .write ∧ BreaksOff luck steps w) := by
    rintro ⟨hm, hbreaks⟩
    exact (hb hm).1 hbreaks hw
  cases hf with
  | same => exact h.same (hsame rfl) rfl rfl rfl
  | setUp => exact h.same (hsame rfl) rfl rfl rfl
  | render => exact h.same (hsame rfl) rfl rfl rfl
  | @write _ before later hg hfs =>
    by_cases hnil : before = []
    · -- nothing was reported, so the write did not break off
      have hw : g.writtenFiles ++ before.map Prod.fst = g.writtenFiles := by simp [hnil]
      exact h.same (hsame hw) rfl rfl hw
    · obtain ⟨parts, hw, hparts, -⟩ := h.rendered hg
      have hbreaks : BreaksOff luck steps w := (hb rfl).2 (by simpa using hnil)
      refine ⟨by simp [hg], fun _ => ⟨parts ++ [before.map Prod.fst], ?_, ?_, ?_⟩⟩
      · rw [List.flatten_append, List.flatten_singleton]
        exact congrArg (· ++ _) hw
      · intro part hpart
        rcases List.mem_append.1 hpart with hpart | hpart
        · exact hparts part hpart
        · rw [List.mem_singleton.1 hpart, hfs, List.map_append]
          exact ⟨by simpa using hnil, List.prefix_append _ _⟩
      · simp [failedPartWay_concat, hbreaks]

end Reported

theorem reported_after (luck : Template.Luck) (steps : List (World × Move)) :
    Reported luck steps (after (fresh luck) steps) := by
  induction steps using List.reverseRecOn with
  | nil => exact ⟨fun _ => ⟨rfl, not_failedPartWay_nil⟩, by simp [after, fresh]⟩
  | append_singleton steps t ih =>
    obtain ⟨w, m⟩ := t
    rw [after_concat]
    rcases perform_cases m (after (fresh luck) steps) w with
      ⟨a, g', w', hp, hm⟩ | ⟨f, g', w', hp, hf⟩
    · rw [hp]
      exact ih.moves hm
    · rw [hp]
      refine ih.fails hf ?_
      rintro rfl
      have hp : write.perform (after (fresh luck) steps) w = (.error f, g', w') := hp
      simp only [BreaksOff, hp]
      exact and_iff_right ⟨f, rfl⟩

/-- The paths of rendered files are distinct. -/
theorem rendered_nodup {steps : List (World × Move)}
    (h : (after (fresh luck) steps).stage = .rendered) :
    ((after (fresh luck) steps).rendered.map Prod.fst).Nodup := by
  obtain ⟨_, _, -, -, _, _, _, -, -, -, hfiles, -⟩ :=
    (justified_after luck steps).expanded (by simp [h])
  exact hfiles.nodup

/-- **What a write reports that succeeds, after any steps, each in any world.** It is parts from the
    start of the rendered files, and then all rendered files in order. So each of them is reported,
    and each once exactly when no write before broke off. -/
theorem write_reports {steps : List (World × Move)} {w : World} {ps : List Path}
    (h : (write.perform (after (fresh luck) steps) w).1 = .ok ps) :
    let g := after (fresh luck) steps
    g.stage = .rendered ∧ (g.rendered.map Prod.fst).Nodup ∧
      (∃ parts : List (List Path), ps = parts.flatten ++ g.rendered.map Prod.fst ∧
        ∀ part ∈ parts, part ≠ [] ∧ part <+: g.rendered.map Prod.fst) ∧
      (ps = g.rendered.map Prod.fst ↔ ¬ FailedPartWay luck steps) ∧
      (ps.Nodup ↔ ¬ FailedPartWay luck steps) := by
  intro g
  obtain ⟨hstage, rfl⟩ := write_ok h
  have hn := rendered_nodup hstage
  obtain ⟨parts, hw, hparts, hiff⟩ := (reported_after luck steps).rendered hstage
  have hlist : g.writtenFiles ++ g.rendered.map Prod.fst = g.rendered.map Prod.fst ↔
      parts = [] := by
    rw [List.append_left_eq_self, hw, List.flatten_eq_nil_iff]
    refine ⟨fun hnil => List.eq_nil_iff_forall_not_mem.2 fun part hp => ?_, by rintro rfl; simp⟩
    exact (hparts part hp).1 (hnil part hp)
  have hnodup : (g.writtenFiles ++ g.rendered.map Prod.fst).Nodup ↔ parts = [] := by
    constructor
    · intro hnd
      refine List.eq_nil_iff_forall_not_mem.2 fun part hp => ?_
      -- the first path of a part is reported again at the end
      obtain ⟨hne, hpre⟩ := hparts part hp
      obtain ⟨p, hmem⟩ := List.exists_mem_of_ne_nil part hne
      refine (List.nodup_append.1 hnd).2.2 p ?_ p (hpre.subset hmem) rfl
      rw [hw]
      exact List.mem_flatten.2 ⟨part, hp, hmem⟩
    · rintro rfl
      have hnone : g.writtenFiles = [] := hw
      rwa [hnone, List.nil_append]
  exact ⟨hstage, hn, ⟨parts, by rw [hw], hparts⟩, hlist.trans hiff, hnodup.trans hiff⟩

/-! ## A write that is tried again -/

/-- A run up to a write that breaks off, as a directory stands where the second file goes. -/
def retriedSteps : List (World × Move) :=
  renderedSteps namingTemplate ++
    [(petWorld namingTemplate [("o", .dir [("b", .dir [] 1)] 1)], .write)]

theorem write_retriedSteps :
    (write.perform (after (fresh (evenLuck 0)) retriedSteps)
      (petWorld namingTemplate [])).1.toOption =
      some [⟨.relative, ["o", "a"]⟩, ⟨.relative, ["o", "a"]⟩, ⟨.relative, ["o", "b"]⟩] := by
  rw [retriedSteps, after_concat, after_renderedSteps_eq]
  decide +kernel

/-- After a write that broke off, the write that succeeds reports a file twice. -/
theorem write_reports_twice :
    (write.perform (after (fresh (evenLuck 0)) retriedSteps) (petWorld namingTemplate [])).1 =
      .ok [⟨.relative, ["o", "a"]⟩, ⟨.relative, ["o", "a"]⟩, ⟨.relative, ["o", "b"]⟩] ∧
    FailedPartWay (evenLuck 0) retriedSteps := by
  have hwrite := eq_ok_of_toOption write_retriedSteps
  obtain ⟨-, -, -, -, h⟩ := write_reports hwrite
  exact ⟨hwrite, Classical.not_not.1 (mt h.2 (by simp))⟩

end Scaffold.Generator
