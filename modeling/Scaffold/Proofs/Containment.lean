/-
  Where rendered files go.

  An output path that leads down from where it is still does so after a category was put into it,
  if the category has a character at all: every part that the category is in then holds a letter, a
  digit or a low line, so it is not `..`, and all other parts stay (`descends_replace`). The empty
  category takes the placeholder away instead, and what is left may start at the root or lead up.

  `render_inside`: rendered files are below the output directory, unless an operation is named by a
  verb and a lone `s`, which gives the empty category, and an output path leads elsewhere without
  its placeholders.
-/
import Scaffold.Proofs.Category
import Scaffold.Proofs.Runs

namespace Scaffold

/-! ## Paths that lead down -/

namespace Path

/-- A path below another: its parts and more, none of which leads up. -/
def Inside (base p : Path) : Prop :=
  ∃ parts, p = ⟨base.root, base.parts ++ parts⟩ ∧ ".." ∉ parts

/-- A written path that leads down: it does not start at the root, and no part leads up. -/
def Descends (cs : List Char) : Prop := rootOf cs = .relative ∧ ".." ∉ partsOf cs

theorem Inside.isAbsolute_eq {base p : Path} (h : Inside base p) :
    p.isAbsolute = base.isAbsolute := by
  obtain ⟨parts, rfl, -⟩ := h
  rfl

theorem inside_join {base : Path} {s : String} (h : Descends s.toList) :
    Inside base (base.join s) := by
  refine ⟨partsOf s.toList, ?_, h.2⟩
  simp only [join, ofString, h.1]

theorem rootOf_eq_relative (cs : List Char) : rootOf cs = .relative ↔ ∀ rest, cs ≠ '/' :: rest := by
  unfold rootOf
  split <;> simp_all

theorem up_mem_partsOf (cs : List Char) : ".." ∈ partsOf cs ↔ ['.', '.'] ∈ pieces [] cs := by
  have hup (p : List Char) : String.ofList p = ".." ↔ p = ['.', '.'] := by
    rw [← String.toList_inj, String.toList_ofList]
    exact Iff.rfl
  simp only [partsOf, List.mem_map, List.mem_filter, hup]
  constructor
  · rintro ⟨p, ⟨hp, -⟩, rfl⟩
    exact hp
  · intro h
    exact ⟨_, ⟨h, by decide⟩, rfl⟩

/-- What has no slash belongs to the piece that was started. -/
theorem pieces_append {piece new : List Char} (h : '/' ∉ new) (rest : List Char) :
    pieces piece (new ++ rest) = pieces (new.reverse ++ piece) rest := by
  induction new generalizing piece with
  | nil => rfl
  | cons c new ih =>
    simp only [List.mem_cons, not_or] at h
    rw [List.cons_append, pieces, if_neg (by simpa using Ne.symm h.1), ih h.2]
    simp

end Path

namespace Text

variable {old new : List Char}

/-- A part `..` of a path in which runs were replaced was there before. `piece` and `piece'` are
    what the part being read starts with, before and after replacing: the same, or something with
    another character than a point in it. -/
theorem up_mem_pieces_replaceRun (hne : old ≠ []) (hold : '/' ∉ old) (hslash : '/' ∉ new)
    (hpoint : ∃ c ∈ new, c ≠ '.') {cs : List Char} {skip : Nat} {piece piece' : List Char}
    (hpiece : skip = 0 ∧ piece' = piece ∨ ∃ c ∈ piece', c ≠ '.') (hskip : '/' ∉ cs.take skip)
    (h : ['.', '.'] ∈ Path.pieces piece' (replaceRun old new none skip cs)) :
    ['.', '.'] ∈ Path.pieces piece cs := by
  obtain ⟨a, old, rfl⟩ := List.exists_cons_of_ne_nil hne
  -- a part with another character in it is not the one that is looked for
  have hother {p : List Char} (hp : ∃ c ∈ p, c ≠ '.') : ['.', '.'] ≠ p.reverse := by
    obtain ⟨c, hc, hne⟩ := hp
    intro he
    have : c ∈ ['.', '.'] := he ▸ List.mem_reverse.2 hc
    simp [hne] at this
  induction cs generalizing skip piece piece' with
  | nil =>
    simp only [replaceRun, Path.pieces, List.mem_singleton] at h ⊢
    rcases hpiece with ⟨-, rfl⟩ | hp
    · exact h
    · exact absurd h (hother hp)
  | cons x xs ih =>
    cases skip with
    | succ skip =>
      simp only [List.take_succ_cons, List.mem_cons, not_or] at hskip
      rw [Path.pieces, if_neg (by simpa using Ne.symm hskip.1)]
      exact ih (Or.inr (by simpa using hpiece)) hskip.2 h
    | zero =>
      by_cases hs : startsWithList (a :: old) (x :: xs) = true
      · -- an occurrence: it has no slash, and what it is replaced by has another character
        rw [replaceRun_cons, if_pos hs, Path.pieces_append hslash] at h
        obtain ⟨c, hc, hne⟩ := hpoint
        have hgrown : ∃ d ∈ new.reverse ++ piece', d ≠ '.' := ⟨c, by simp [hc], hne⟩
        obtain ⟨rest, hrest⟩ := startsWithList_isPrefix.1 hs
        obtain ⟨rfl, rfl⟩ := List.cons.inj hrest
        simp only [List.mem_cons, not_or] at hold
        rw [Path.pieces, if_neg (by simpa using Ne.symm hold.1)]
        exact ih (Or.inr hgrown) (by simpa using hold.2) h
      · rw [replaceRun_cons, if_neg hs] at h
        by_cases hx : x = '/'
        · subst hx
          simp only [Path.pieces, beq_self_eq_true, if_true, List.mem_cons] at h ⊢
          rcases h with h | h
          · rcases hpiece with ⟨-, rfl⟩ | hp
            · exact Or.inl h
            · exact absurd h (hother hp)
          · exact Or.inr (ih (Or.inl ⟨rfl, rfl⟩) (by simp) h)
        · rw [Path.pieces, if_neg (by simpa using hx)] at h ⊢
          refine ih ?_ (by simp) h
          rcases hpiece with ⟨-, rfl⟩ | ⟨c, hc, hne⟩
          · exact Or.inl ⟨rfl, rfl⟩
          · exact Or.inr ⟨c, List.mem_cons_of_mem _ hc, hne⟩

/-- A path that leads down still does so after a run of it was replaced by something that is not
    empty and has neither a slash nor a point. -/
theorem descends_replace {cs : List Char} (h : Path.Descends cs) (hne : old ≠ []) (hold : '/' ∉ old)
    (hnew : new ≠ []) (hchars : ∀ c ∈ new, c ≠ '/' ∧ c ≠ '.') :
    Path.Descends (replace old new none cs) := by
  obtain ⟨c, new, rfl⟩ := List.exists_cons_of_ne_nil hnew
  have hc := hchars c (List.mem_cons_self ..)
  have hslash : '/' ∉ c :: new := fun hm => (hchars _ hm).1 rfl
  have hrun : replace old (c :: new) none cs = replaceRun old (c :: new) none 0 cs := by
    simp [replace, hne]
  rw [hrun]
  constructor
  · rw [Path.rootOf_eq_relative]
    intro rest hrest
    cases cs with
    | nil => simp [replaceRun] at hrest
    | cons x xs =>
      rw [replaceRun_cons] at hrest
      split at hrest
      · exact hc.1 (List.cons.inj hrest).1
      · exact (Path.rootOf_eq_relative _).1 h.1 xs (by rw [(List.cons.inj hrest).1])
  · rw [Path.up_mem_partsOf]
    intro hup
    refine h.2 ((Path.up_mem_partsOf cs).2 ?_)
    exact up_mem_pieces_replaceRun hne hold hslash ⟨c, List.mem_cons_self .., hc.2⟩
      (Or.inl ⟨rfl, rfl⟩) (by simp) hup

end Text

/-! ## Rendered files -/

theorem Naming.IsCategoryChar.ne {c : Char} (h : Naming.IsCategoryChar c) : c ≠ '/' ∧ c ≠ '.' := by
  constructor <;> (rintro rfl; simp [Naming.IsCategoryChar, Text.isAsciiAlphanumeric] at h)

namespace Generator

theorem slash_notMem_placeholder : '/' ∉ placeholder := by simp [placeholder_eq]

theorem inside_categoryPath {config : Config} {category output : String}
    (hout : Path.Descends output.toList) (hne : category ≠ "")
    (hchars : ∀ c ∈ category.toList, Naming.IsCategoryChar c) :
    Path.Inside config.outputDir (categoryPath config category output) := by
  refine Path.inside_join ?_
  rw [String.toList_ofList]
  exact Text.descends_replace hout placeholder_ne_nil slash_notMem_placeholder (by simpa using hne)
    fun c hc => (hchars c hc).ne

/-- The paths of the jobs of outputs. -/
theorem mem_jobs_path {config : Config} {context : Context} {engine : Engine} {p : Path}
    (hne : config.outputs ≠ []) :
    p ∈ (jobs config context engine).map Job.path ↔
      ∃ o ∈ config.outputs,
        (Text.occursIn placeholder o.2.toList = false ∧ p = config.outputDir.join o.2) ∨
        (Text.occursIn placeholder o.2.toList = true ∧
          ∃ k ∈ context.categories.map Prod.fst, p = categoryPath config k o.2) := by
  have houtputs : outputs config engine = config.outputs := by
    rw [outputs, if_neg (by simpa using hne)]
  simp only [jobs, houtputs, List.map_flatMap, List.mem_flatMap]
  refine exists_congr fun o => and_congr_right fun _ => ?_
  cases ho : Text.occursIn placeholder o.2.toList with
  | true =>
    simp only [jobsOf, ho, if_true, List.map_map, List.mem_map, Function.comp_apply, categoryPath]
    simp only [Bool.true_eq_false, false_and, true_and, false_or]
    constructor
    · rintro ⟨g, hg, rfl⟩
      exact ⟨g.1, ⟨g, hg, rfl⟩, rfl⟩
    · rintro ⟨k, ⟨g, hg, rfl⟩, rfl⟩
      exact ⟨g, hg, rfl⟩
  | false => simp [jobsOf, ho]

/-- A context is put together from some specification. -/
theorem contextOf_eq_assemble {config : Config} {spec : Specification} {other : Option Supplied}
    {context : Context} (h : contextOf config spec other = .ok context) :
    ∃ s, context = Context.assemble config s := by
  have hbuild {s : Specification} (h : Context.build s config = .ok context) :
      ∃ s, context = Context.assemble config s := by
    unfold Context.build at h
    split at h
    · cases h
    · cases h; exact ⟨s, rfl⟩
  cases other with
  | none => exact hbuild h
  | some other =>
    cases other with
    | checked s => exact hbuild h
    | raw v =>
      simp only [contextOf, Supplied.context, Context.buildFromJson] at h
      split at h
      · exact hbuild h
      · cases h

/-- Without groups, the categories of a context are those of the names of its operations. -/
theorem mem_categories {config : Config} {s : Specification} (hgroups : config.groups = [])
    {k : String} : k ∈ (Context.assemble config s).categories.map Prod.fst ↔
      ∃ o ∈ (Context.assemble config s).operations, Naming.categoryByName o.name = k := by
  have hcategory : ∀ o ∈ (Context.assemble config s).operations,
      o.category = Naming.categoryByName o.name := by
    intro o ho
    obtain ⟨op, -, rfl⟩ := List.mem_map.1 ho
    simp [Context.operationEntry, Naming.category, hgroups]
  rw [show (Context.assemble config s).categories =
    Context.sortedGroups (Context.assemble config s).operations from rfl, Context.mem_sortedGroups]
  exact exists_congr fun o => and_congr_right fun ho => by rw [hcategory o ho]

/-- **Rendered files stay below the output directory**, for output paths that lead down and
    categories by name, exactly if no operation is named by a verb and a lone `s`, or the output
    paths lead down without their placeholders too. No file then is at an absolute path unless the
    output directory is. All this is the same where templates have taken items out of the context
    that was built. -/
theorem render_inside {g g' : Generator} {w w' : World} {config : Config} {spec : Specification}
    {built context : Context} {other : Option Supplied} {files : List (Path × Text)}
    (hstage : g.stage = .contextBuilt) (hconfig : g.config = some config)
    (hcontext : g.context = some context) (hbuilt : contextOf config spec other = .ok built)
    (hremains : Context.Remains built context) (hgroups : config.groups = [])
    (hne : config.outputs ≠ []) (hout : ∀ o ∈ config.outputs, Path.Descends o.2.toList)
    (hr : render.perform g w = (.ok files, g', w')) :
    ((∀ f ∈ files, Path.Inside config.outputDir f.1) ↔
      ((∃ o ∈ built.operations, Naming.IsVerbWithLoneS o.name) → ∀ o ∈ config.outputs,
        Text.occursIn placeholder o.2.toList = true →
          Path.Inside config.outputDir (categoryPath config "" o.2))) ∧
    ((∀ f ∈ files, Path.Inside config.outputDir f.1) →
      ∀ f ∈ files, f.1.isAbsolute = true → config.outputDir.isAbsolute = true) := by
  refine ⟨?_, fun h f hf ha => (h f hf).isAbsolute_eq ▸ ha⟩
  obtain ⟨s, rfl⟩ := contextOf_eq_assemble hbuilt
  have hpaths := (render_ok hstage hconfig hcontext hr).1.paths
  have hmem (P : Path → Prop) : (∀ f ∈ files, P f.1) ↔
      ∀ p ∈ (jobs config context g.press.engine).map Job.path, P p := by
    rw [← List.forall_mem_map (f := Prod.fst) (P := P), hpaths]
    simp only [List.mem_eraseDups]
  rw [hmem]
  simp only [mem_jobs_path hne, hremains.categoryNames, mem_categories hgroups]
  constructor
  · rintro h ⟨op, hop, hs⟩ o ho hoccurs
    refine h _ ⟨o, ho, Or.inr ⟨hoccurs, "", ⟨op, hop, ?_⟩, rfl⟩⟩
    exact (Naming.categoryByName_eq_empty op.name).2 hs
  · rintro h p ⟨o, ho, ⟨-, rfl⟩ | ⟨hoccurs, k, ⟨op, hop, rfl⟩, rfl⟩⟩
    · exact Path.inside_join (hout o ho)
    · by_cases hk : Naming.categoryByName op.name = ""
      · rw [hk]
        exact h ⟨op, hop, (Naming.categoryByName_eq_empty op.name).1 hk⟩ o ho hoccurs
      · exact inside_categoryPath (hout o ho) hk (Naming.mem_categoryByName op.name)

/-- A template that goes to a directory for each category. -/
def categoryConfig : Config := { plainConfig with outputs := [("a", "\x7bcategory\x7d/a")] }

/-- A specification whose only operation is `GetS`. -/
def loneSpec : Specification := { operations := [{ name := "GetS" }] }

/-- The steps up to its context. -/
def loneSteps : List (World × Move) :=
  readySteps categoryConfig namingTemplate (some (.checked loneSpec))

theorem contextOf_loneSpec : contextOf categoryConfig petSpec (some (.checked loneSpec)) =
    .ok (Context.assemble categoryConfig loneSpec) := by
  have hnone : Context.refusal? loneSpec = none := by cbv
  simp only [contextOf, Supplied.context, Context.build, hnone]

theorem after_loneSteps : after (fresh (evenLuck 0)) loneSteps =
    ready (evenLuck 0) categoryConfig namingTemplate (Context.assemble categoryConfig loneSpec) :=
  after_readySteps _ categoryConfig.outputs _ contextOf_loneSpec

theorem render_loneSpec : (render.perform (ready (evenLuck 0) categoryConfig namingTemplate
    (Context.assemble categoryConfig loneSpec)) (petWorld namingTemplate [])).1.toOption =
      some [(⟨.slash, ["a"]⟩, Text.ofString "GetS")] := by
  decide +kernel

/-- The only file that is rendered for `GetS` is outside the output directory. -/
theorem render_inside_lone_s : ∃ files g' w',
    render.perform (after (fresh (evenLuck 0)) loneSteps) (petWorld namingTemplate []) =
      (.ok files, g', w') ∧ ¬ ∀ f ∈ files, Path.Inside categoryConfig.outputDir f.1 := by
  rw [after_loneSteps]
  have hdescends : ∀ o ∈ categoryConfig.outputs, Path.Descends o.2.toList := by
    intro o ho
    have hparts : Path.partsOf "\x7bcategory\x7d/a".toList = ["\x7bcategory\x7d", "a"] := by cbv
    rw [List.mem_singleton.1 ho]
    exact ⟨by cbv, hparts ▸ by simp⟩
  have hlone : Naming.IsVerbWithLoneS "GetS" := ⟨"get", by simp [Naming.verbs], by cbv⟩
  have hr := eq_ok_of_toOption render_loneSpec
  rcases hp : render.perform (ready (evenLuck 0) categoryConfig namingTemplate
    (Context.assemble categoryConfig loneSpec)) (petWorld namingTemplate []) with ⟨r, g', w'⟩
  rw [hp] at hr
  obtain rfl : r = .ok [(⟨.slash, ["a"]⟩, Text.ofString "GetS")] := hr
  have hiff := (render_inside rfl rfl rfl contextOf_loneSpec (.refl _) rfl
    (by simp [categoryConfig]) hdescends hp).1
  refine ⟨_, g', w', rfl, fun hin => ?_⟩
  obtain ⟨parts, hparts, -⟩ := hiff.1 hin
    ⟨Context.operationEntry categoryConfig { name := "GetS" }, List.mem_singleton.2 rfl, hlone⟩
    ("a", "\x7bcategory\x7d/a") (List.mem_singleton.2 rfl) (by cbv)
  have hroot : (categoryPath categoryConfig "" "\x7bcategory\x7d/a").root = .slash := by cbv
  rw [hparts] at hroot
  cases hroot

end Generator

end Scaffold
