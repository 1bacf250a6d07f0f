/-
  A press after any calls: what the last load decides.

  * `isIndex_of_templatesIn`: the templates of a directory are its regular files with a name that
    ends with `.j2`, each once and ordered by name. `templatesIn_error_iff` says which directories
    cannot be loaded.
  * `after` is the press after calls, each in a world of its own. One call changes the templates
    only if it loads some (`engine_step`), so after all calls they are those of the last load
    (`engine_after`).
  * Texts that were kept before the last load may no longer be what their templates print. They are
    if nothing is drawn and no load changes what is printed by a template that stays the same
    (`upToDate_after`); where they are not, they are printed all the same (`render_kept`).

  `last_load` says what follows for the names, for loads that fail and for rendering. Rendering is
  compared with a press that was only asked for the last load and has the same draws to come.
-/
import Mathlib
import Scaffold.Press
import Scaffold.Proofs.Keeping
import Scaffold.Proofs.Splicing

namespace Scaffold

/-! ## The templates of a directory -/

namespace Engine

/-- The names of the templates among the entries of a directory: ordered, and each once. -/
structure IsIndex (entries : List (String × Entry)) (names : List String) : Prop where
  increasing : names.Pairwise (· < ·)
  mem_iff : ∀ n, n ∈ names ↔
    n ≠ "" ∧ ∃ bytes time, (n ++ ".j2", Entry.file bytes time) ∈ entries

theorem names_sources {files : List (String × List UInt8)} {library : Template.Library}
    (h : sources files = .ok library) : library.map Prod.fst = files.map Prod.fst := by
  induction files generalizing library with
  | nil => cases h; rfl
  | cons f files ih =>
    obtain ⟨n, bs⟩ := f
    rw [sources] at h
    split at h
    · cases h
    split at h
    · cases h
    next more hmore =>
    cases h
    rw [List.map_cons, List.map_cons, ih hmore]

/-- The names of loaded templates are those of the template files of the directory. -/
theorem perm_names {s : Store} {dir : Path} {e : Engine} (h : templatesIn s dir = .ok e) :
    e.names.Perm (((s.entries dir).filterMap template?).map Prod.fst) := by
  have hfiles : (templateFiles (s.entries dir)).Perm ((s.entries dir).filterMap template?) := by
    rw [templateFiles_eq]
    exact (List.mergeSort_perm _ _).filterMap _
  refine (List.mergeSort_perm _ _).trans ?_
  rw [names_sources (library_of_templatesIn h)]
  exact hfiles.map Prod.fst

theorem isIndex_of_templatesIn {s : Store} {dir : Path} {e : Engine}
    (h : templatesIn s dir = .ok e) (hdistinct : ((s.entries dir).map Prod.fst).Nodup) :
    IsIndex (s.entries dir) e.names := by
  have hperm := perm_names h
  have hnodup : (((s.entries dir).filterMap template?).map Prod.fst).Nodup := by
    refine List.pairwise_map.2 ((List.pairwise_map.1 hdistinct).filterMap _ ?_)
    intro x y hxy a ha b hb hab
    obtain ⟨-, _, rfl⟩ := template?_eq_some.1 ha
    obtain ⟨-, _, rfl⟩ := template?_eq_some.1 hb
    exact hxy (by rw [hab])
  constructor
  · have hsorted : e.names.Pairwise (· ≤ ·) := Text.pairwise_mergeSort_notAfter id _
    exact (hsorted.and (hperm.nodup_iff.2 hnodup)).imp fun h => lt_of_le_of_ne h.1 h.2
  · intro n
    rw [hperm.mem_iff, List.mem_map]
    constructor
    · rintro ⟨t, ht, rfl⟩
      obtain ⟨x, hx, ht⟩ := List.mem_filterMap.1 ht
      obtain ⟨hne, time, rfl⟩ := template?_eq_some.1 ht
      exact ⟨hne, _, time, hx⟩
    · rintro ⟨hne, bytes, time, hx⟩
      exact ⟨(n, bytes), List.mem_filterMap.2 ⟨_, hx, template?_eq_some.2 ⟨hne, time, rfl⟩⟩, rfl⟩

theorem sources_error_iff {files : List (String × List UInt8)} :
    (∃ f, sources files = .error f) ↔ ∃ t ∈ files, ∃ f, Utf8.decode t.2 = .error f := by
  induction files with
  | nil => simp [sources]
  | cons t files ih =>
    obtain ⟨name, bytes⟩ := t
    rw [List.exists_mem_cons_iff, ← ih, sources]
    cases hd : Utf8.decode bytes with
    | error f => simp
    | ok cs => cases hs : sources files <;> simp

/-- A directory that cannot be loaded: it is none, or a template in it is no UTF-8. -/
def Unreadable (s : Store) (dir : Path) : Prop :=
  s.isDir dir ≠ .ok true ∨ ∃ n bytes time f, n ≠ "" ∧
    (n ++ ".j2", Entry.file bytes time) ∈ s.entries dir ∧ Utf8.decode bytes = .error f

theorem templatesIn_error_iff {s : Store} {dir : Path} :
    (∃ f, templatesIn s dir = .error f) ↔ Unreadable s dir := by
  have hfiles : (∃ f, sources (templateFiles (s.entries dir)) = .error f) ↔
      ∃ n bytes time f, n ≠ "" ∧ (n ++ ".j2", Entry.file bytes time) ∈ s.entries dir ∧
        Utf8.decode bytes = .error f := by
    rw [sources_error_iff, templateFiles_eq]
    constructor
    · rintro ⟨t, ht, f, hf⟩
      obtain ⟨x, hx, ht⟩ := List.mem_filterMap.1 ht
      obtain ⟨hne, time, rfl⟩ := template?_eq_some.1 ht
      exact ⟨t.1, t.2, time, f, hne, List.mem_mergeSort.1 hx, hf⟩
    · rintro ⟨n, bytes, time, f, hne, hx, hf⟩
      exact ⟨(n, bytes), List.mem_filterMap.2 ⟨_, List.mem_mergeSort.2 hx,
        template?_eq_some.2 ⟨hne, time, rfl⟩⟩, f, hf⟩
  unfold Unreadable templatesIn
  rw [← hfiles]
  rcases s.isDir dir with f | _ | _
  · simp
  · simp
  · cases sources (templateFiles (s.entries dir)) <;> simp

end Engine

/-! ## Calls -/

namespace Press

open Generator (evenLuck)
open Template (Library Scope Lasts Fits FitsAll Prints)

/-- What can be asked of a press. -/
inductive Call where
  | load (dir : Path)
  | render (name : String) (context : Scope)
  | deliver (path : Path) (content : Text)

/-- The press and the world after a call. -/
def Call.step (p : Press) (w : World) : Call → Press × World
  | .load dir =>
    match (p.load dir).perform w with
    | (.ok p', w') => (p', w')
    | (.error _, w') => (p, w')
  | .render name context => ((p.render name context).press, w)
  | .deliver path content => (p, ((Engine.deliver path content).perform w).2)

/-- The press after calls, each made in a world of its own. -/
def after (p : Press) : List (World × Call) → Press
  | [] => p
  | (w, c) :: rest => after (c.step p w).1 rest

/-- The templates that a call loads. -/
def Call.loaded? (w : World) : Call → Option Engine
  | .load dir => ((Engine.load dir).perform w).1.toOption
  | .render _ _ | .deliver _ _ => none

/-- The last of some calls that loaded templates. -/
def lastLoad? (calls : List (World × Call)) : Option (World × Call) :=
  calls.reverse.find? fun t => (t.2.loaded? t.1).isSome

/-- The templates of each load. -/
def loads (calls : List (World × Call)) : List Library :=
  calls.filterMap fun t => (t.2.loaded? t.1).map Engine.library

variable {p : Press} {w : World} {calls : List (World × Call)} {luck : Template.Luck}

theorem after_concat (p : Press) (calls : List (World × Call)) (t : World × Call) :
    after p (calls ++ [t]) = (t.2.step (after p calls) t.1).1 := by
  induction calls generalizing p with
  | nil => rfl
  | cons u calls ih => exact ih _

theorem exists_perform_load (p : Press) (dir : Path) (w : World) : ∃ w', (p.load dir).perform w =
    ((Engine.templatesIn w.store dir).map fun e => { p with engine := e }, w') := by
  obtain ⟨events, h⟩ := Engine.perform_load dir w
  rw [perform_load, h]
  cases Engine.templatesIn w.store dir <;> exact ⟨_, rfl⟩

theorem loaded?_load (w : World) (dir : Path) :
    (Call.load dir).loaded? w = (Engine.templatesIn w.store dir).toOption := by
  obtain ⟨events, h⟩ := Engine.perform_load dir w
  rw [Call.loaded?, h]

theorem step_load (p : Press) (w : World) (dir : Path) : ((Call.load dir).step p w).1 =
    { p with engine := ((Call.load dir).loaded? w).getD p.engine } := by
  obtain ⟨w', h⟩ := exists_perform_load p dir w
  rw [Call.step, h, loaded?_load]
  cases Engine.templatesIn w.store dir <;> rfl

/-- A call changes the templates only if it loads some. -/
theorem engine_step (p : Press) (w : World) (c : Call) :
    (c.step p w).1.engine = (c.loaded? w).getD p.engine := by
  cases c with
  | load dir => rw [step_load]
  | render name context => exact engine_render p name context
  | deliver => rfl

theorem lastLoad?_concat (calls : List (World × Call)) (t : World × Call) :
    lastLoad? (calls ++ [t]) = if (t.2.loaded? t.1).isSome then some t else lastLoad? calls := by
  rw [lastLoad?, List.reverse_append, List.reverse_singleton, List.singleton_append,
    List.find?_cons]
  cases (t.2.loaded? t.1).isSome <;> rfl

theorem isSome_loaded? {t : World × Call} (h : lastLoad? calls = some t) :
    (t.2.loaded? t.1).isSome = true :=
  List.find?_some (p := fun t : World × Call => (t.2.loaded? t.1).isSome) h

/-- The templates are those of the last load. -/
theorem engine_after (p : Press) (calls : List (World × Call)) : (after p calls).engine =
    ((lastLoad? calls).bind fun t => t.2.loaded? t.1).getD p.engine := by
  induction calls using List.reverseRecOn with
  | nil => rfl
  | append_singleton calls t ih =>
    rw [after_concat, engine_step, ih, lastLoad?_concat]
    cases ht : t.2.loaded? t.1 with
    | none => rfl
    | some e => simp [ht]

theorem lastLoad?_eq_some {t : World × Call} (h : lastLoad? calls = some t) :
    ∃ w dir e, t = (w, .load dir) ∧ Engine.templatesIn w.store dir = .ok e := by
  obtain ⟨w, c⟩ := t
  have hloaded : (c.loaded? w).isSome = true := isSome_loaded? h
  cases c with
  | load dir =>
    rw [loaded?_load] at hloaded
    cases he : Engine.templatesIn w.store dir with
    | ok e => exact ⟨w, dir, e, rfl, he⟩
    | error f =>
      rw [he] at hloaded
      cases hloaded
  | render => cases hloaded
  | deliver => cases hloaded

/-- A press that was only asked for the last load has the same templates, and its draws to come. -/
theorem after_lastLoad? (luck luck' : Template.Luck) (calls : List (World × Call)) :
    after (fresh luck') (lastLoad? calls).toList =
      ⟨(after (fresh luck) calls).engine, some [], luck'⟩ := by
  rw [engine_after (fresh luck) calls]
  cases h : lastLoad? calls with
  | none => rfl
  | some t =>
    obtain ⟨w, dir, e, rfl, he⟩ := lastLoad?_eq_some h
    simp only [Option.toList_some, after, step_load, Option.bind_some, loaded?_load, he]
    rfl

theorem load_error_iff {dir : Path} :
    (∃ f, ((p.load dir).perform w).1 = .error f) ↔ Engine.Unreadable w.store dir := by
  obtain ⟨w', h⟩ := exists_perform_load p dir w
  rw [h, ← Engine.templatesIn_error_iff]
  cases Engine.templatesIn w.store dir <;> simp [Except.map]

/-- A load that fails leaves the press as it is. -/
theorem step_of_unreadable {dir : Path} (h : Engine.Unreadable w.store dir) :
    ((Call.load dir).step p w).1 = p := by
  obtain ⟨f, hf⟩ := Engine.templatesIn_error_iff.2 h
  rw [step_load, loaded?_load, hf]
  rfl

/-! ## Rendering -/

/-- The text that is kept of the template of a name as it is now. -/
def kept? (p : Press) (name : String) : Option Text :=
  p.shelf.bind (Template.Shelf.text? name ((p.engine.library.source? name).getD []))

/-- Every text that is kept of a template is the one that it prints now. -/
def UpToDate (p : Press) : Prop :=
  ∀ name ∈ p.names, ∀ text, p.kept? name = some text → Prints p.engine.library name text

theorem mem_names_iff {name : String} :
    name ∈ p.names ↔ ∃ source, p.engine.library.source? name = some source := by
  rw [← Option.isSome_iff_exists, Library.source?, Option.isSome_map, List.find?_isSome]
  simp [names, Engine.names]

theorem has_iff {name : String} : p.engine.has name = true ↔ name ∈ p.names := by
  simp [Engine.has, names, Engine.names]

theorem upToDate_iff_fits : p.UpToDate ↔ Fits p.engine.library p.shelf := by
  constructor
  · intro h s hs name source text hsource htext
    refine h name (mem_names_iff.2 ⟨source, hsource⟩) text ?_
    rw [kept?, Option.mem_def.1 hs, hsource]
    exact htext
  · intro h name hname text htext
    obtain ⟨source, hsource⟩ := mem_names_iff.1 hname
    obtain ⟨s, hs, htext⟩ := Option.bind_eq_some_iff.1 htext
    rw [hsource] at htext
    exact h s hs name source text hsource htext

theorem result_render (p : Press) (name : String) (context : Scope) :
    (p.render name context).result = if p.engine.has name then
      ((p.engine.library.renderTo Template.maxDepth name context).perform p.desk).1.mapError
        (Engine.unrendered name)
    else .error (p.engine.unknown name) := by
  unfold render
  split <;> rfl

theorem render_unknown {name : String} (h : name ∉ p.names) (context : Scope) :
    ∃ e : CodedError, p.render name context = ⟨.error (.coded e none), p, .untouched⟩ ∧
      e.code = "AXE-G003" ∧
      e.details = some [("template", .str name), ("available", .arr (p.names.map .str))] := by
  rw [render, if_neg (mt has_iff.1 h)]
  exact ⟨_, rfl, show Area.code .generator 3 = _ by cbv, rfl⟩

section Same

variable {shelf : Option Template.Shelf} {name : String} {context : Scope}

/-- If no template is inserted without names, then what is kept does not matter. -/
theorem render_eq_of_allowed (hlib : p.engine.library.allowed .named = true)
    (hcontext : Template.allowedNames .named context = true) :
    (p.render name context).result =
      ((⟨p.engine, shelf, p.luck⟩ : Press).render name context).result := by
  have h := Template.renderTo_eq_of_allowed hlib hcontext Template.maxDepth name p.desk p.shelf
    shelf
  rw [result_render, result_render]
  exact congrArg (fun r : Template.Result Text => ite _ (r.mapError _) _) h

/-- What is kept and up to date does not matter either, if nothing is drawn and rendering does not
    go too deep. -/
theorem render_eq_of_upToDate (hstill : p.engine.library.allowed .still = true)
    (hp : p.UpToDate) (hq : (⟨p.engine, shelf, p.luck⟩ : Press).UpToDate)
    (hdeep : (p.render name context).result ≠ .error (Engine.unrendered name .endless))
    (hdeep' : ((⟨p.engine, shelf, p.luck⟩ : Press).render name context).result ≠
      .error (Engine.unrendered name .endless)) :
    (p.render name context).result =
      ((⟨p.engine, shelf, p.luck⟩ : Press).render name context).result := by
  rw [upToDate_iff_fits] at hp hq
  rw [result_render] at hdeep hdeep' ⊢
  rw [result_render]
  by_cases hname : p.engine.has name = true
  · rw [if_pos hname] at hdeep hdeep'
    rw [if_pos hname, if_pos hname]
    have h := Template.renderTo_eq (d := p.desk) hstill hp hq
      (fun h => hdeep (congrArg (Except.mapError _) h))
      (fun h => hdeep' (congrArg (Except.mapError _) h))
    exact congrArg (Except.mapError _) h
  · rw [if_neg hname, if_neg hname]

end Same

/-- A template that only inserts another one, without names, prints the text that is kept of it,
    whatever that one prints now. -/
theorem render_kept {a b : String} {t : Template} {mayBeMissing : Bool} {context : Scope}
    {text : Text} (hroom : ∀ s ∈ p.shelf, s.length < Template.Shelf.room)
    (ha : p.engine.library.load a =
      .ok ⟨[.insert (.literal (.string (Text.ofString b))) mayBeMissing false]⟩)
    (hb : p.engine.library.load b = .ok t) (hself : context.get? "self" = none)
    (hkept : p.kept? b = some text) : (p.render a context).result = .ok text := by
  obtain ⟨s, hs, htext⟩ := Option.bind_eq_some_iff.1 hkept
  have hname : p.engine.has a = true :=
    has_iff.2 (mem_names_iff.2 ⟨_, Template.source?_of_load ha⟩)
  have hrender := Template.perform_renderTo_kept (d := p.desk) 2996 ha hb hself (hroom s hs) htext
  rw [← hs] at hrender
  rw [result_render, if_pos hname]
  exact congrArg (Except.mapError _) hrender

/-! ## Texts that stay up to date -/

theorem fits_nil (lib : Library) : Fits lib (some []) := by
  intro s hs name source text _ htext
  cases hs
  cases htext

theorem lasts_nil (lib : Library) : Lasts [] lib := by
  rintro name text - ⟨t, ht, -⟩
  cases ht

theorem fitsAll_render {later : List Library} (hstill : p.engine.library.allowed .still = true)
    (hlast : ∀ lib ∈ later, Lasts p.engine.library lib)
    (h : FitsAll (p.engine.library :: later) p.shelf) (name : String) (context : Scope) :
    FitsAll (p.engine.library :: later) (p.render name context).press.shelf := by
  unfold render
  split
  · exact (Template.faithful_renderTo hstill hlast Template.maxDepth name context p.desk h).1
  · exact h

theorem fits_after (h : FitsAll (p.engine.library :: loads calls) p.shelf)
    (hstill : ∀ lib ∈ p.engine.library :: loads calls, lib.allowed .still = true)
    (hlast : (p.engine.library :: loads calls).Pairwise Lasts) :
    Fits (after p calls).engine.library (after p calls).shelf := by
  induction calls generalizing p with
  | nil => exact h _ (List.mem_cons_self ..)
  | cons t calls ih =>
    obtain ⟨w, c⟩ := t
    cases c with
    | load dir =>
      -- the templates of this load take the place of those before; the shelf stays
      simp only [after, step_load]
      cases hloaded : (Call.load dir).loaded? w with
      | none =>
        simp only [loads, List.filterMap_cons, hloaded, Option.map_none] at h hstill hlast
        exact ih h hstill hlast
      | some e =>
        simp only [loads, List.filterMap_cons, hloaded, Option.map_some] at h hstill hlast
        exact ih (fun lib hlib => h lib (List.mem_cons_of_mem _ hlib))
          (fun lib hlib => hstill lib (List.mem_cons_of_mem _ hlib)) (List.pairwise_cons.1 hlast).2
    | render name context =>
      have hfits := fitsAll_render (hstill _ (List.mem_cons_self ..))
        (List.pairwise_cons.1 hlast).1 h name context
      rw [← engine_render p name context] at hfits hstill hlast
      exact ih hfits hstill hlast
    | deliver => exact ih h hstill hlast

/-- What is kept is up to date if nothing is drawn and no load changed what is printed by a template
    that stayed the same. -/
theorem upToDate_after (hstill : ∀ lib ∈ loads calls, lib.allowed .still = true)
    (h : (loads calls).Pairwise Lasts) : (after (fresh luck) calls).UpToDate := by
  refine upToDate_iff_fits.2 (fits_after (fun lib _ => fits_nil lib) ?_ ?_)
  · exact List.forall_mem_cons.2 ⟨rfl, hstill⟩
  · exact List.pairwise_cons.2 ⟨fun lib _ => lasts_nil lib, h⟩

/-- Names and templates are those of the last load. So is what is rendered, where no template is
    inserted without names, or where nothing is drawn and all that is kept is up to date; a kept
    text that is not is printed nevertheless. -/
theorem last_load (luck : Template.Luck) (calls : List (World × Call)) :
    let p := after (fresh luck) calls
    let q := after (fresh p.luck) (lastLoad? calls).toList
    p.names = q.names ∧
    (lastLoad? calls = none → p.names = []) ∧
    (∀ t, lastLoad? calls = some t → ∃ w dir, t = (w, .load dir) ∧
      (((w.store.entries dir).map Prod.fst).Nodup →
        Engine.IsIndex (w.store.entries dir) p.names)) ∧
    (∀ w dir, ((∃ f, ((p.load dir).perform w).1 = .error f) ↔ Engine.Unreadable w.store dir) ∧
      (Engine.Unreadable w.store dir → ((Call.load dir).step p w).1 = p)) ∧
    (∀ name context, name ∉ p.names → ∃ e : CodedError,
      p.render name context = ⟨.error (.coded e none), p, .untouched⟩ ∧ e.code = "AXE-G003" ∧
        e.details = some [("template", .str name), ("available", .arr (p.names.map .str))]) ∧
    (∀ name context, p.engine.library.allowed .named = true →
      Template.allowedNames .named context = true →
      (p.render name context).result = (q.render name context).result) ∧
    (∀ name context, p.engine.library.allowed .still = true → p.UpToDate →
      (p.render name context).result ≠ .error (Engine.unrendered name .endless) →
      (q.render name context).result ≠ .error (Engine.unrendered name .endless) →
      (p.render name context).result = (q.render name context).result) ∧
    ((∀ lib ∈ loads calls, lib.allowed .still = true) → (loads calls).Pairwise Lasts →
      p.UpToDate) ∧
    (∀ a b t mayBeMissing context text, (∀ s ∈ p.shelf, s.length < Template.Shelf.room) →
      p.engine.library.load a =
        .ok ⟨[.insert (.literal (.string (Text.ofString b))) mayBeMissing false]⟩ →
      p.engine.library.load b = .ok t → Scope.get? context "self" = none →
      p.kept? b = some text → (p.render a context).result = .ok text) := by
  intro p q
  have hq : q = ⟨p.engine, some [], p.luck⟩ := after_lastLoad? luck p.luck calls
  have hfits : (⟨p.engine, some [], p.luck⟩ : Press).UpToDate := upToDate_iff_fits.2 (fits_nil _)
  have hafter := engine_after (fresh luck) calls
  rw [hq]
  refine ⟨rfl, fun hnone => ?_, fun t ht => ?_,
    fun w dir => ⟨load_error_iff, step_of_unreadable⟩,
    fun name context h => render_unknown h context,
    fun name context => render_eq_of_allowed,
    fun name context hstill hp => render_eq_of_upToDate hstill hp hfits,
    upToDate_after, fun a b t m context text hroom ha hb => render_kept hroom ha hb⟩
  · rw [hnone] at hafter
    rw [names, hafter]
    exact List.mergeSort_nil
  · obtain ⟨w, dir, e, rfl, he⟩ := lastLoad?_eq_some ht
    refine ⟨w, dir, rfl, fun hdistinct => ?_⟩
    rw [ht, Option.bind_some, loaded?_load, he] at hafter
    rw [names, hafter]
    exact Engine.isIndex_of_templatesIn he hdistinct

/-- Three templates of which the first ones each insert the next. -/
def pages (first last : String) : List (String × String) :=
  [("a", first), ("b", "\x7b% include \"c\" %\x7d"), ("c", last)]

/-- A directory with these templates. -/
def shelved (first last : String) : World where
  store := ⟨.dir [("t", .dir ((pages first last).map fun t =>
    (t.1 ++ ".j2", .file (Utf8.encode t.2.toList) 0)) 0)] 0, [], 0⟩
  reported := []

/-- The templates of that directory. -/
def bound (first last : String) : Engine := ⟨(pages first last).map fun t => (t.1, t.2.toList)⟩

/-- Load the templates, render the first one, and load them with another last one. -/
def reloading (first : String) : List (World × Call) :=
  [(shelved first "old", .load ⟨.relative, ["t"]⟩), (shelved first "old", .render "a" []),
    (shelved first "new", .load ⟨.relative, ["t"]⟩)]

theorem after_reloading (luck : Template.Luck) (first : String) (hload : ∀ last ∈ ["old", "new"],
      (Call.load ⟨.relative, ["t"]⟩).loaded? (shelved first last) = some (bound first last)) :
    after (fresh luck) (reloading first) = { ((⟨bound first "old", some [], luck⟩ : Press).render
      "a" []).press with engine := bound first "new" } := by
  simp only [reloading, after, step_load, hload "old" (by simp), hload "new" (by simp),
    Option.getD_some]
  rfl

/-- A template that gives no names to the one that it inserts. -/
def unnamed : String := "\x7b% include \"b\" without context %\x7d"

/-- A template that gives its names to the one that it inserts. -/
def sharing : String := "\x7b% include \"b\" %\x7d"

theorem loaded_unnamed : ∀ last ∈ ["old", "new"], (Call.load ⟨.relative, ["t"]⟩).loaded?
    (shelved unnamed last) = some (bound unnamed last) := by
  simp only [List.forall_mem_cons]
  exact ⟨by cbv, by cbv, by simp⟩

/-- A press that was asked for all calls prints what it has kept, and one that was only asked for
    the last load what the templates print now. -/
theorem render_unnamed :
    let p := after (fresh (evenLuck 0)) (reloading unnamed)
    (p.render "a" []).result.toOption = some (Text.ofString "old") ∧
    ((after (fresh p.luck) (lastLoad? (reloading unnamed)).toList).render "a" []).result.toOption =
      some (Text.ofString "new") := by
  intro p
  have hp := after_reloading (evenLuck 0) unnamed loaded_unnamed
  rw [after_lastLoad? (evenLuck 0)]
  simp only [p, hp]
  decide +kernel

theorem last_load_reloading :
    let p := after (fresh (evenLuck 0)) (reloading unnamed)
    let p' := after (fresh (evenLuck 0)) (reloading sharing)
    p.names = ["a", "b", "c"] ∧ ¬ p.UpToDate ∧
    (p'.render "a" []).result =
      ((after (fresh p'.luck) (lastLoad? (reloading sharing)).toList).render "a" []).result := by
  intro p p'
  have hp := after_reloading (evenLuck 0) unnamed loaded_unnamed
  obtain ⟨hold, hnew⟩ := render_unnamed
  refine ⟨?_, fun h => ?_, ?_⟩
  · have hnames : (bound unnamed "new").names = ["a", "b", "c"] := by cbv
    simp only [p, hp]
    exact hnames
  · have hstill : p.engine.library.allowed .still = true := by
      simp only [p, hp]
      decide +kernel
    have hsame := (last_load (evenLuck 0) (reloading unnamed)).2.2.2.2.2.2.1 "a" [] hstill h
      (fun h => by rw [h] at hold; cases hold) (fun h => by rw [h] at hnew; cases hnew)
    rw [hsame, hnew] at hold
    exact absurd hold (by decide +kernel)
  · have hp' := after_reloading (evenLuck 0) sharing (by
      simp only [List.forall_mem_cons]
      exact ⟨by cbv, by cbv, by simp⟩)
    refine (last_load (evenLuck 0) (reloading sharing)).2.2.2.2.2.1 "a" [] ?_ rfl
    rw [hp']
    decide +kernel

/-- Rendering does not only depend on the last load and on the draws to come. -/
theorem not_render_lastLoad : ¬ ∀ luck calls name context,
    let p := after (fresh luck) calls
    (p.render name context).result =
      ((after (fresh p.luck) (lastLoad? calls).toList).render name context).result := by
  intro h
  obtain ⟨hold, hnew⟩ := render_unnamed
  rw [h, hnew] at hold
  exact absurd hold (by decide +kernel)

end Press

end Scaffold
