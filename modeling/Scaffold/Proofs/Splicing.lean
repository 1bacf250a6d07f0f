/-
  What templates of text and interpolated names are rendered to: `render_splice`.

  * Rendering a pattern only prints. `Plain` says that names are looked up in what was given from
    outside, which printing keeps; `exec_text` and `exec_name` are the two statements of a pattern,
    and `exec_body` a whole one.
  * `find?_library`: the template of a file is under its name, however the directory is ordered.
  * `deliver_of_accepts`: a text is written as it is wherever a file can be written.
-/
import Mathlib
import Scaffold.Proofs.Interpolation
import Scaffold.Proofs.Repeat

namespace Scaffold

namespace Template

/-! ## Rendering -/

/-- The text of a pattern with texts for its names. -/
def Pattern.splice (values : String → Text) (p : Pattern) : Text :=
  (p.slots.flatMap fun s => s.before.chars.map .scalar ++ values s.ident.name) ++
    p.last.chars.map .scalar

variable {context : Scope} {st : State}

/-- Names are looked up in what was given from outside, and all is printed. -/
structure Plain (context : Scope) (st : State) : Prop where
  context : st.context = context
  vars : st.vars = []
  scopes : st.scopes = []
  within : st.within = none
  parent : st.parent = none

theorem plain_initial (context : Scope) (t : Template) : Plain context (.initial context t) :=
  ⟨rfl, rfl, rfl, rfl, rfl⟩

namespace Plain

theorem print (h : Plain context st) (t : Text) : Plain context (st.print t) :=
  ⟨h.context, h.vars, h.scopes, h.within, h.parent⟩

theorem isSilent (h : Plain context st) : st.isSilent = false := by
  simp [State.isSilent, h.parent]

theorem get (h : Plain context st) (i : Ident) :
    st.get i.name = (context.get? i.name).getD
      (.missing (Text.quotedString i.name ++ " is undefined")) := by
  have hfree := i.free
  simp only [reserved, List.mem_append, List.mem_cons, List.not_mem_nil, or_false, not_or] at hfree
  obtain ⟨⟨-, -, -, -, -, -, -, hself⟩, hbuiltin⟩ := hfree
  simp only [State.get, h.scopes, h.within, h.vars, h.context, List.findSome?_nil]
  rw [if_neg (by simpa using hself)]
  cases context.get? i.name with
  | some v => rfl
  | none =>
    rw [if_neg (by simpa using hbuiltin)]
    rfl

end Plain

@[simp] theorem printed_print (st : State) (t : Text) : (st.print t).printed = st.printed ++ t := by
  simp [State.printed, State.print]

theorem exec_text (lib : Library) (fuel : Nat) (h : Plain context st) (cs : List Char) :
    exec (fuel + 1) lib st (.text cs) = pure (st.print (cs.map .scalar)) := by
  rw [exec, h.isSilent]
  rfl

theorem perform_text (v : Value) (d : Desk) : (Run.text v).perform d = (v.shown d.loans, d) := rfl

theorem exec_name (lib : Library) (fuel : Nat) (h : Plain context st) (i : Ident) :
    exec (fuel + 2) lib st (.print (.name i.name)) = do
      return st.print (← Run.text ((context.get? i.name).getD
        (.missing (Text.quotedString i.name ++ " is undefined")))) := by
  rw [exec, h.isSilent, if_neg Bool.false_ne_true, eval, ← h.get i, pure_bind]

/-- Text is printed before the rest is run. -/
theorem exec_textStmts (lib : Library) (fuel : Nat) (h : Plain context st) (cs : List Char)
    (body : List Stmt) :
    ∃ st', Plain context st' ∧ st'.printed = st.printed ++ cs.map .scalar ∧
      (textStmts cs ++ body).foldlM (exec (fuel + 2) lib) st =
        body.foldlM (exec (fuel + 2) lib) st' := by
  unfold textStmts
  split
  · next hcs =>
    obtain rfl := List.isEmpty_iff.1 hcs
    exact ⟨st, h, by simp, rfl⟩
  · refine ⟨st.print (cs.map .scalar), h.print _, printed_print _ _, ?_⟩
    rw [List.singleton_append, List.foldlM_cons, exec_text lib (fuel + 1) h, pure_bind]

/-- A pattern whose names all have a text is printed as its text with theirs in it. -/
theorem exec_body (lib : Library) (fuel : Nat) (values : String → Text) (p : Pattern)
    (hvalues : ∀ s ∈ p.slots, context.get? s.ident.name = some (.text (values s.ident.name)))
    (h : Plain context st) :
    ∃ st', p.body.foldlM (exec (fuel + 2) lib) st = pure st' ∧ Plain context st' ∧
      st'.printed = st.printed ++ p.splice values := by
  obtain ⟨slots, last⟩ := p
  induction slots generalizing st with
  | nil =>
    obtain ⟨st', hst', hprinted, hrun⟩ := exec_textStmts lib fuel h last.chars []
    refine ⟨st', ?_, hst', by simpa [Pattern.splice] using hprinted⟩
    rw [List.append_nil] at hrun
    exact hrun
  | cons s slots ih =>
    obtain ⟨st₁, h₁, hprinted, hrun⟩ := exec_textStmts lib fuel h s.before.chars
      (.print (.name s.ident.name) :: Pattern.body ⟨slots, last⟩)
    have hname : exec (fuel + 2) lib st₁ (.print (.name s.ident.name)) =
        pure (st₁.print (values s.ident.name)) := by
      rw [exec_name lib fuel h₁, hvalues s (by simp)]
      rfl
    obtain ⟨st', hst', hplain, hall⟩ := ih (h₁.print (values s.ident.name))
      fun s' hs' => hvalues s' (by simp [hs'])
    refine ⟨st', ?_, hplain, ?_⟩
    · rw [Pattern.body_cons, hrun, List.foldlM_cons, hname, pure_bind, hst']
    · rw [hall, printed_print, hprinted]
      simp [Pattern.splice]

/-- A pattern with a name that has no value fails, there or before. -/
theorem exec_body_unbound (lib : Library) (fuel : Nat) (d : Desk) (p : Pattern)
    (hp : ∃ s ∈ p.slots, context.get? s.ident.name = none) (h : Plain context st) :
    ∃ f, (p.body.foldlM (exec (fuel + 2) lib) st).perform d = (.error f, d) := by
  obtain ⟨slots, last⟩ := p
  induction slots generalizing st with
  | nil => simp at hp
  | cons s slots ih =>
    obtain ⟨st₁, h₁, -, hrun⟩ := exec_textStmts lib fuel h s.before.chars
      (.print (.name s.ident.name) :: Pattern.body ⟨slots, last⟩)
    rw [Pattern.body_cons, hrun, List.foldlM_cons, exec_name lib fuel h₁]
    simp only [Run.perform_bind, perform_text]
    cases hv : context.get? s.ident.name with
    | none => exact ⟨_, rfl⟩
    | some v =>
      rw [Option.getD_some]
      cases hshown : v.shown d.loans with
      | error f => exact ⟨f, rfl⟩
      | ok t =>
        obtain ⟨f, hf⟩ := ih (h₁.print t) (by simpa [hv] using hp)
        exact ⟨f, hf⟩

/-- Rendering runs the statements of the template. -/
theorem perform_renderTo {lib : Library} {name : String} {p : Pattern}
    (hl : lib.find? (·.1 == name) = some (name, p.source)) (hself : context.get? "self" = none)
    (d : Desk) :
    ∃ d', ((lib.renderTo maxDepth name context).perform d).1 =
      ((renderRoot maxDepth lib ⟨p.body⟩ (.initial context ⟨p.body⟩)).perform d').1.map
        State.printed := by
  have hload : lib.load name = .ok ⟨p.body⟩ := by simp only [Library.load, hl, p.compile_source]
  let d' : Desk := { d with shelf := d.shelf.map (Shelf.renew name ((lib.source? name).getD [])) }
  refine ⟨d', ?_⟩
  simp only [Library.renderTo, Run.perform_bind, perform_fetch_ok hload, hself,
    Option.isSome_none, Bool.false_eq_true, if_false]
  rcases (renderRoot maxDepth lib ⟨p.body⟩ (.initial context ⟨p.body⟩)).perform d' with
    ⟨f | st, d''⟩ <;> rfl

theorem renderRoot_body {t : Template} (lib : Library) (st : State) :
    renderRoot maxDepth lib t st = t.body.foldlM (exec 2998 lib) st >>= fun after =>
      match after.parent with
      | none => pure after
      | some parent => renderRoot 2999 lib parent { after with parent := none } := by
  unfold maxDepth renderRoot execAll
  rfl

/-- A pattern is rendered to its text with the texts of its names in it, or not at all. -/
theorem renderTo_pattern {lib : Library} {name : String} {p : Pattern}
    (hl : lib.find? (·.1 == name) = some (name, p.source)) (hself : context.get? "self" = none)
    (d : Desk) :
    (∀ values : String → Text,
      (∀ s ∈ p.slots, context.get? s.ident.name = some (.text (values s.ident.name))) →
      ((lib.renderTo maxDepth name context).perform d).1 = .ok (p.splice values)) ∧
    ((∃ s ∈ p.slots, context.get? s.ident.name = none) →
      ∃ f, ((lib.renderTo maxDepth name context).perform d).1 = .error f) := by
  have hplain := plain_initial context ⟨p.body⟩
  obtain ⟨d', hrender⟩ := perform_renderTo hl hself d
  rw [hrender, renderRoot_body]
  constructor
  · intro values hvalues
    obtain ⟨st, hst, hplain', hprinted⟩ := exec_body lib 2996 values p hvalues hplain
    simp only [hst, pure_bind, hplain'.parent, Run.perform_pure, Except.map, hprinted]
    rfl
  · intro hp
    obtain ⟨f, hf⟩ := exec_body_unbound lib 2996 d' p hp hplain
    exact ⟨f, by rw [Run.perform_bind, hf]; rfl⟩

/-! ## Sources -/

theorem noReturn_source (p : Pattern) : '\r' ∉ p.source := by
  have hchar : Text.isNameChar '\r' = false := by decide +kernel
  have hslot (s : Slot) : '\r' ∉ s.source := by
    have hname : '\r' ∉ s.ident.name.toList := fun h => by
      rw [s.ident.chars _ h] at hchar
      cases hchar
    simp [Slot.source, s.before.noReturn, hname]
  simp [Pattern.source, hslot, p.last.noReturn]

theorem noSurrogate_splice {values : String → Text} {p : Pattern}
    (h : ∀ s ∈ p.slots, (values s.ident.name).NoSurrogate) : (p.splice values).NoSurrogate := by
  intro n hn
  simp only [Pattern.splice, List.mem_append, List.mem_flatMap, List.mem_map, reduceCtorEq,
    and_false, exists_false, false_or, or_false] at hn
  obtain ⟨s, hs, hn⟩ := hn
  exact h s hs n hn

end Template

theorem Text.uniformLines_eq_self {cs : List Char} (h : '\r' ∉ cs) : uniformLines cs = cs := by
  induction cs with
  | nil => rfl
  | cons c cs ih =>
    obtain ⟨hc, hcs⟩ : '\r' ≠ c ∧ '\r' ∉ cs := by simpa using h
    rw [uniformLines, ih hcs]
    · rintro rest rfl
      exact absurd rfl hc
    · rintro rfl
      exact absurd rfl hc

namespace Store

variable {s : Store} {p : Path}

/-- The directories above a path can be made, and no directory stands at the path then. -/
def Accepts (s : Store) (p : Path) : Prop :=
  ∃ s₁, s.makeDirs p.parent = (.ok (), s₁) ∧
    ∃ way, s₁.locate p = .ok way ∧ s₁.top.look way ≠ some .dir

theorem write_of_locate {way : Way} (bytes : List UInt8) (hway : s.locate p = .ok way)
    (hdir : s.top.look way ≠ some .dir) :
    s.write p bytes = .ok (s.place way (.file bytes s.now)) := by
  unfold write writeAt
  rw [hway]
  dsimp only
  split
  · next hget => exact absurd (by rw [Entry.look, hget]; rfl) hdir
  · rfl

end Store

namespace Engine

/-! ## Templates by name -/

theorem templateName?_eq_some {file name : String} :
    templateName? file = some name ↔ name ≠ "" ∧ file = name ++ ".j2" := by
  have hfile : file = name ++ ".j2" ↔
      file.toList.reverse = '2' :: 'j' :: '.' :: name.toList.reverse := by
    rw [← String.toList_inj, ← List.reverse_inj]
    simp
  rw [hfile]
  unfold templateName?
  split
  · next base hbase =>
    rw [hbase]
    simp only [List.cons.injEq, true_and]
    constructor
    · intro h
      split at h
      · cases h
      · next hb =>
        cases h
        exact ⟨by simpa [← String.toList_inj] using hb, by simp⟩
    · rintro ⟨hne, rfl⟩
      have hchars : name.toList ≠ [] := fun h => hne (String.toList_inj.1 h)
      rw [if_neg (by simpa using hchars), List.reverse_reverse, String.ofList_toList]
  · next hno =>
    simp only [reduceCtorEq, false_iff, not_and]
    intro _ he
    exact hno _ he

theorem find?_sources {files : List (String × List UInt8)} {library : Template.Library}
    {name : String} {bytes : List UInt8} {cs : List Char} (h : sources files = .ok library)
    (hfile : files.find? (·.1 == name) = some (name, bytes)) (hcs : Utf8.decode bytes = .ok cs) :
    library.find? (·.1 == name) = some (name, Text.uniformLines cs) := by
  induction files generalizing library with
  | nil => cases hfile
  | cons f files ih =>
    obtain ⟨n, bs⟩ := f
    rw [sources] at h
    split at h
    · cases h
    next ds hds =>
    split at h
    · cases h
    next more hmore =>
    cases h
    by_cases hn : n = name
    · subst hn
      obtain rfl : bs = bytes := by simpa using hfile
      rw [hcs] at hds
      cases hds
      simp
    · have hne : (n == name) = false := by simpa using hn
      rw [List.find?_cons, hne] at hfile ⊢
      exact ih hmore hfile

/-- The template of a directory entry. -/
def template? (x : String × Entry) : Option (String × List UInt8) :=
  match templateName? x.1, x.2 with
  | some name, .file bytes _ => some (name, bytes)
  | _, _ => none

theorem templateFiles_eq (entries : List (String × Entry)) :
    templateFiles entries =
      (entries.mergeSort fun a b => Text.notAfter a.1 b.1).filterMap template? := rfl

theorem template?_eq_some {x : String × Entry} {t : String × List UInt8} :
    template? x = some t ↔ t.1 ≠ "" ∧ ∃ time, x = (t.1 ++ ".j2", .file t.2 time) := by
  obtain ⟨file, entry⟩ := x
  obtain ⟨name, bytes⟩ := t
  unfold template?
  split
  · next n bs time hn he =>
    obtain ⟨hne, rfl⟩ := templateName?_eq_some.1 hn
    obtain rfl : entry = .file bs time := he
    constructor
    · intro h
      cases h
      exact ⟨hne, time, rfl⟩
    · rintro ⟨_, time', h⟩
      obtain ⟨hfile, hentry⟩ := Prod.mk.inj h
      cases hentry
      obtain rfl : n = name := by simpa [← String.toList_inj] using hfile
      rfl
  · next hno =>
    simp only [reduceCtorEq, false_iff, not_and, not_exists]
    intro hne time h
    obtain ⟨hfile, hentry⟩ := Prod.mk.inj h
    exact hno _ _ _ (templateName?_eq_some.2 ⟨hne, hfile⟩) hentry

/-- Only one file name has a template of a name. -/
theorem eq_of_any_template? {name : String} {x : String × Entry}
    (h : (template? x).any (·.1 == name) = true) : x.1 = name ++ ".j2" := by
  obtain ⟨t, ht, hname⟩ := (Option.any_eq_true _ _).1 h
  obtain ⟨-, time, rfl⟩ := template?_eq_some.1 ht
  rw [← beq_iff_eq.1 hname]

theorem find?_entries {entries : List (String × Entry)} {name : String} {bytes : List UInt8}
    {time : Int} (hname : name ≠ "")
    (h : Entry.find? (name ++ ".j2") entries = some (.file bytes time)) :
    entries.find? (fun x => (template? x).any (·.1 == name)) =
      some (name ++ ".j2", .file bytes time) := by
  induction entries with
  | nil => cases h
  | cons x entries ih =>
    by_cases hx : x.1 = name ++ ".j2"
    · obtain ⟨file, e⟩ := x
      subst hx
      obtain rfl : e = .file bytes time := by simpa [Entry.find?] using h
      simp [template?, templateName?_eq_some.2 ⟨hname, rfl⟩]
    · have hno : (template? x).any (·.1 == name) = false :=
        Bool.eq_false_iff.2 fun hany => hx (eq_of_any_template? hany)
      rw [List.find?_cons, hno]
      exact ih (by simpa [Entry.find?, hx] using h)

theorem find?_templateFiles {entries : List (String × Entry)} {name : String}
    {bytes : List UInt8} {time : Int} (hname : name ≠ "")
    (h : Entry.find? (name ++ ".j2") entries = some (.file bytes time)) :
    (templateFiles entries).find? (·.1 == name) = some (name, bytes) := by
  rw [templateFiles_eq, List.find?_filterMap,
    find?_mergeSort (Text.notAfter_trans Prod.fst) (Text.notAfter_total Prod.fst),
    find?_entries hname h]
  · simp [template?, templateName?_eq_some.2 ⟨hname, rfl⟩]
  · intro a b ha hb
    rw [Text.notAfter_iff, eq_of_any_template? ha, eq_of_any_template? hb]

/-- The template in a file is found under the name of the file. -/
theorem find?_library {s : Store} {dir : Path} {e : Engine} {name : String} {cs : List Char}
    {time : Int} (h : templatesIn s dir = .ok e) (hname : name ≠ "")
    (hfile : Entry.find? (name ++ ".j2") (s.entries dir) = some (.file (Utf8.encode cs) time)) :
    e.library.find? (·.1 == name) = some (name, Text.uniformLines cs) :=
  find?_sources (library_of_templatesIn h) (find?_templateFiles hname hfile) (Utf8.decode_encode cs)

/-! ## Writing what was rendered -/

theorem deliver_of_accepts {w : World} {path : Path} {t : Text} (hw : w.store.Grounded)
    (ht : t.NoSurrogate) (h : w.store.Accepts path) :
    ∃ w', (deliver path t).perform w = (.ok (), w') ∧ w'.store.Holds path t := by
  obtain ⟨s₁, hmade, way, hway, hdir⟩ := h
  obtain ⟨str, rfl⟩ := Text.exists_ofString ht
  have hwrite := Store.write_of_locate (Utf8.encode str.toList) hway hdir
  have hrun := perform_deliver path (Text.ofString str) w
  simp only [hmade, Text.ofString, Text.chars?_map_scalar, hwrite] at hrun
  refine ⟨_, hrun, ?_⟩
  exact (Generator.Delivers.cons hrun (.nil _)).holds hw (List.nil_append _).symm (by simp)

/-- Text of templates is rendered as it stands, and values as they are, whatever they look like and
    whatever was rendered before. -/
theorem render_splice {dir : Path} {w w' : World} {e : Engine} {name : String}
    {p : Template.ClearPattern} {time : Int} {context : Template.Scope} {q : Press}
    (hload : (load dir).perform w = (.ok e, w')) (hq : q.engine = e) (hname : name ≠ "")
    (hfile : Entry.find? (name ++ ".j2") (w.store.entries dir) =
      some (.file (Utf8.encode p.source) time))
    (hself : context.get? "self" = none) :
    (∀ values : String → Text,
      (∀ s ∈ p.slots, context.get? s.ident.name = some (.text (values s.ident.name))) →
      (q.render name context).result = .ok (p.splice values) ∧
      ((∀ s ∈ p.slots, (values s.ident.name).NoSurrogate) →
        ∀ (path : Path) (v : World), v.store.Grounded → v.store.Accepts path →
          ∃ v', (deliver path (p.splice values)).perform v = (.ok (), v') ∧
            v'.store.Holds path (p.splice values))) ∧
    ((∃ s ∈ p.slots, context.get? s.ident.name = none) →
      ∃ f, (q.render name context).result = .error f ∧ f.code? = some "AXE-G004") := by
  obtain ⟨events, hperform⟩ := perform_load dir w
  have hin : templatesIn w.store dir = .ok q.engine := by
    rw [hperform] at hload
    rw [hq]
    exact congrArg Prod.fst hload
  have hlib := find?_library hin hname hfile
  rw [Text.uniformLines_eq_self (Template.noReturn_source p.toPattern)] at hlib
  obtain ⟨hok, herror⟩ := Template.renderTo_pattern hlib hself q.desk
  have hhas : q.engine.has name = true :=
    List.any_eq_true.2 ⟨_, List.mem_of_find?_eq_some hlib, beq_self_eq_true name⟩
  rw [Press.render, if_pos hhas]
  constructor
  · intro values hvalues
    refine ⟨by simp only [hok values hvalues]; rfl, fun hclean path v hv haccepts => ?_⟩
    exact deliver_of_accepts hv (Template.noSurrogate_splice hclean) haccepts
  · intro hp
    obtain ⟨f, hf⟩ := herror hp
    simp only [hf]
    exact ⟨_, rfl, rfl⟩

/-- A letter to a person. -/
def letter : Template.ClearPattern where
  slots := [⟨⟨"Dear ".toList, by simp [List.infix_cons_iff], by simp⟩, by simp,
    ⟨"name", List.all_eq_true.1 (by decide +kernel), by decide +kernel, by decide⟩⟩]
  last := ⟨"!\n".toList, by simp [List.infix_cons_iff], by simp⟩
  apart := by simp

/-- A directory with the letter as its only template. -/
def desk : World where
  store := ⟨.dir [("t", .dir [("a.j2", .file (Utf8.encode letter.source) 0)] 0)] 0, [], 0⟩
  reported := []

theorem render_splice_letter :
    let value := Text.ofString "\x7b\x7b x \x7d\x7d"
    let text := Text.ofString "Dear \x7b\x7b x \x7d\x7d!\n"
    let path : Path := ⟨.relative, ["d", "o"]⟩
    ∃ e w', (load ⟨.relative, ["t"]⟩).perform desk = (.ok e, w') ∧
      ∀ q : Press, q.engine = e →
        (q.render "a" [("name", .text value)]).result = .ok text ∧
        (∃ v', (deliver path text).perform desk = (.ok (), v') ∧ v'.store.Holds path text) ∧
        ∃ f, (q.render "a" []).result = .error f ∧ f.code? = some "AXE-G004" := by
  intro value text path
  have hok : ((load ⟨.relative, ["t"]⟩).perform desk).1.isOk = true := by decide +kernel
  rcases hload : (load ⟨.relative, ["t"]⟩).perform desk with ⟨f | e, w'⟩
  · rw [hload] at hok
    cases hok
  have hfile : Entry.find? ("a" ++ ".j2") (desk.store.entries ⟨.relative, ["t"]⟩) =
      some (.file (Utf8.encode letter.source) 0) := rfl
  have hbound : Template.Scope.get? [("name", .text value)] "self" = none := rfl
  have hunbound : Template.Scope.get? [] "self" = none := rfl
  have htext : letter.splice (fun _ => value) = text := by decide +kernel
  refine ⟨e, w', rfl, fun q hq => ?_⟩
  obtain ⟨hrender, hdeliver⟩ := (render_splice hload hq (by decide) hfile hbound).1
    (fun _ => value) (by simp [letter, Template.Scope.get?])
  rw [htext] at hrender hdeliver
  refine ⟨hrender, ?_, ?_⟩
  · refine hdeliver (fun _ _ => Text.noSurrogate_ofString _) path desk rfl ?_
    refine ⟨_, rfl, _, rfl, fun hdir => ?_⟩
    cases hdir
  · exact (render_splice hload hq (by decide) hfile hunbound).2 ⟨_, List.mem_singleton.2 rfl, rfl⟩

end Engine

end Scaffold
