/-
  What is kept of templates shows only where a template is inserted without names.

  * `Steady`: a computation comes to the same with every shelf. Templates that give their names to
    those they insert never look for a kept text, so rendering them is steady
    (`renderTo_eq_of_allowed`).
  * `Settles`: what a computation comes to without a shelf, once it may go deep enough. `Prints` is
    the text that a template then prints without names, and a shelf `Fits` the templates if every
    text that is kept of a template as it is now is that one.
  * `Faithful`: with a shelf that fits, a computation comes to what it settles to, unless it is too
    deep, and the shelf fits afterwards. So two shelves that fit lead to the same (`renderTo_eq`).
    This is only so for templates that do not draw: a text that is kept was drawn once, and without
    a shelf it would be drawn again.

  Both are compositional; `keeping` alone reads texts off the shelf.
-/
import Mathlib
import Scaffold.Proofs.Footprint

namespace Scaffold.Template

open Filter (atTop Eventually eventually_atTop)

variable {α β : Type}

/-- A desk with another shelf. -/
def Desk.with (d : Desk) (shelf : Option Shelf) : Desk := { d with shelf := shelf }

/-! ## With any shelf -/

/-- With every shelf a computation comes to the same, which has a property. -/
def Steady (α : Type) (P : α → Prop) (depth : Nat) (x : Nat → Run α) : Prop :=
  ∀ d : Desk, ∃ (r : Result α) (d' : Desk), Gives P r ∧
    ∀ shelf, ∃ shelf', (x depth).perform (d.with shelf) = (r, d'.with shelf')

namespace Steady

variable {P : α → Prop} {Q : β → Prop} {depth : Nat} {x : Nat → Run α} {f : Nat → α → Run β}

theorem bind (hx : Steady α P depth x) (hf : ∀ a, P a → Steady β Q depth (f · a)) :
    Steady β Q depth fun depth => x depth >>= f depth := by
  intro d
  obtain ⟨r, d', hr, hx⟩ := hx d
  cases r with
  | error e =>
    refine ⟨.error e, d', .error, fun shelf => ?_⟩
    obtain ⟨shelf', hx⟩ := hx shelf
    exact ⟨shelf', by rw [Run.perform_bind, hx]⟩
  | ok a =>
    obtain ⟨r, d'', hr', hf⟩ := hf a (hr a rfl) d'
    refine ⟨r, d'', hr', fun shelf => ?_⟩
    obtain ⟨shelf', hx⟩ := hx shelf
    obtain ⟨shelf'', hf⟩ := hf shelf'
    exact ⟨shelf'', by rw [Run.perform_bind, hx, ← hf]⟩

theorem apart (h : Steady α P depth x) : Steady α P depth fun depth => Run.apart (x depth) := by
  intro d
  obtain ⟨r, d', hr, h⟩ := h { d with loans := .untouched }
  refine ⟨r, { d' with loans := d.loans }, hr, fun shelf => ?_⟩
  obtain ⟨shelf', h⟩ := h shelf
  refine ⟨shelf', ?_⟩
  have h : (x depth).perform { d.with shelf with loans := .untouched } = _ := h
  rw [Run.perform_apart, h]
  rfl

end Steady

theorem compositional_steady (lib : Library) : Compositional lib .named Steady where
  of_zero h d := ⟨.error .endless, d, .error, fun shelf => ⟨shelf, by rw [h]; rfl⟩⟩
  of_succ h := h
  lift h d := ⟨_, d, h, fun shelf => ⟨shelf, rfl⟩⟩
  bind hx hf := hx.bind hf
  loans d := ⟨.ok d.loans, d, .any, fun shelf => ⟨shelf, rfl⟩⟩
  setBusy spots d := ⟨.ok (), { d with loans := { d.loans with busy := spots } }, .any,
    fun shelf => ⟨shelf, rfl⟩⟩
  put spot ps _ d := ⟨.ok (), { d with loans := d.loans.put spot ps }, .any,
    fun shelf => ⟨shelf, rfl⟩⟩
  draw n _ d := ⟨.ok (d.luck 0 % n), { d with luck := d.luck.after 1 }, .any,
    fun shelf => ⟨shelf, rfl⟩⟩
  apart h := h.apart
  touch _ d := ⟨.ok (), d, .any, fun _ => ⟨_, rfl⟩⟩
  fetch name d := by
    cases hload : lib.load name with
    | ok t => exact ⟨.ok t, d, .ok rfl, fun _ => ⟨_, perform_fetch_ok hload _⟩⟩
    | error e => exact ⟨.error e, d, .error, fun _ => ⟨_, perform_fetch_error hload _⟩⟩
  keeping h := nomatch h

/-- If no template is inserted without names, then a template is rendered to the same with any two
    shelves. -/
theorem renderTo_eq_of_allowed {lib : Library} (hlib : lib.allowed .named = true) {context : Scope}
    (hcontext : allowedNames .named context = true) (depth : Nat) (name : String) (d : Desk)
    (shelf shelf' : Option Shelf) :
    ((lib.renderTo depth name context).perform (d.with shelf)).1 =
      ((lib.renderTo depth name context).perform (d.with shelf')).1 := by
  obtain ⟨r, d', -, h⟩ := (compositional_steady lib).renderTo hlib hcontext depth name d
  obtain ⟨_, hs⟩ := h shelf
  obtain ⟨_, hs'⟩ := h shelf'
  rw [hs, hs']

/-! ## Without a shelf -/

/-- Without a shelf a computation at a desk comes to this result and desk, at every depth from some
    depth on. -/
def Settles (x : Nat → Run α) (d : Desk) (r : Result α) (d' : Desk) : Prop :=
  ∀ᶠ depth in atTop, (x depth).perform (d.with none) = (r, d'.with none)

namespace Settles

variable {x : Nat → Run α} {f : Nat → α → Run β} {d d' d'' : Desk} {r r' : Result α}

theorem eq (h : Settles x d r d') (h' : Settles x d r' d'') : r = r' := by
  obtain ⟨depth, h, h'⟩ := (h.and h').exists
  exact (Prod.mk.inj (h.symm.trans h')).1

theorem of_succ (h : Settles (fun depth => x (depth + 1)) d r d') : Settles x d r d' := by
  obtain ⟨least, h⟩ := eventually_atTop.1 h
  refine eventually_atTop.2 ⟨least + 1, fun depth hd => ?_⟩
  obtain ⟨n, rfl⟩ : ∃ n, depth = n + 1 := ⟨depth - 1, by omega⟩
  exact h n (by omega)

theorem bind {a : α} {r : Result β} (hx : Settles x d (.ok a) d')
    (hf : Settles (f · a) d' r d'') : Settles (fun depth => x depth >>= f depth) d r d'' := by
  filter_upwards [hx, hf] with depth hx hf
  rw [Run.perform_bind, hx]
  exact hf

theorem bind_error {e : TemplateFault} (hx : Settles x d (.error e) d') :
    Settles (fun depth => x depth >>= f depth) d (.error e) d' := by
  filter_upwards [hx] with depth hx
  rw [Run.perform_bind, hx]

theorem apart (h : Settles x { d with loans := .untouched } r d') :
    Settles (fun depth => Run.apart (x depth)) d r { d' with loans := d.loans } := by
  filter_upwards [h] with depth h
  have h : (x depth).perform { d.with none with loans := .untouched } = _ := h
  rw [Run.perform_apart, h]
  rfl

end Settles

/-- The text that the template of a name prints without names, whatever the draws would give. -/
def Prints (lib : Library) (name : String) (text : Text) : Prop :=
  ∃ t, lib.load name = .ok t ∧ ∀ d, Settles (bare · lib t) d (.ok text) d

/-- Templates that do not draw print the same at every desk. -/
theorem prints_of_settles {lib : Library} (hstill : lib.allowed .still = true) {name : String}
    {t : Template} (hload : lib.load name = .ok t) {d d' : Desk} {text : Text}
    (h : Settles (bare · lib t) d (.ok text) d') : Prints lib name text := by
  have hc := compositional_drawing lib .still
  have ht := Library.allowedIn_of_load hstill hload
  refine ⟨t, hload, fun e => ?_⟩
  filter_upwards [h] with depth h
  have hst : (State.initial [] t).Allowed .still := State.allowed_initial rfl ht
  have hroot := (hc.traversed hstill depth).renderRoot ht hst
  have hdrawing : Drawing .still Text (fun _ => True) depth fun depth =>
      renderRoot depth lib t (.initial [] t) >>= fun after => pure after.printed :=
    hc.bind hroot fun _ _ => hc.pure trivial
  obtain ⟨n, r, d₁, -, hn, hrun⟩ := hdrawing ⟨none, .untouched, d.luck⟩
  obtain rfl := hn rfl
  have hbare (e : Desk) :
      (bare depth lib t).perform (e.with none) = (r, ⟨d₁.shelf, e.loans, e.luck⟩) := by
    have hrun := hrun e.luck fun _ h => absurd h (Nat.not_lt_zero _)
    rw [Luck.after_zero] at hrun
    rw [bare, Run.perform_apart]
    exact congrArg (fun x : Result Text × Desk => (x.1, { x.2 with loans := e.loans })) hrun
  rw [hbare] at h ⊢
  obtain ⟨rfl, hshelf⟩ := Prod.mk.inj h
  rw [show d₁.shelf = none from congrArg Desk.shelf hshelf]
  rfl

/-! ## Texts on the shelf -/

namespace Shelf

variable {shelf : Shelf} {name m : String} {source src : List Char} {text u : Text}

theorem find?_others (hne : m ≠ name) :
    List.find? (·.1 == m) (shelf.filter (·.1 != name)) = List.find? (·.1 == m) shelf := by
  rw [List.find?_filter]
  congr 1
  funext e
  by_cases he : e.1 = m <;> simp [he, hne]

theorem find?_put {h h' : Held} (hfind : (shelf.put name h).find? m = some h') :
    m = name ∧ h' = h ∨ shelf.find? m = some h' := by
  obtain ⟨e, he, rfl⟩ := Option.map_eq_some_iff.1 hfind
  have he := (List.take_prefix _ _).find?_eq_some he
  rw [List.find?_cons] at he
  split at he
  · next hm =>
    cases he
    exact Or.inl ⟨(beq_iff_eq.1 hm).symm, rfl⟩
  · next hm =>
    rw [find?_others fun h => by simp [h] at hm] at he
    exact Or.inr (by rw [find?, he]; rfl)

theorem text?_eq_some : shelf.text? m src = some u ↔
    ∃ h, shelf.find? m = some h ∧ h.source = src ∧ h.text = some u := by
  unfold text?
  cases shelf.find? m with
  | none => simp
  | some h => simp

theorem text?_touch (h : (shelf.touch name).text? m src = some u) : shelf.text? m src = some u := by
  unfold touch at h
  split at h
  · next held hheld =>
    obtain ⟨h', hfind, hsource, htext⟩ := text?_eq_some.1 h
    rcases find?_put hfind with ⟨rfl, rfl⟩ | hfind
    · exact text?_eq_some.2 ⟨_, hheld, hsource, htext⟩
    · exact text?_eq_some.2 ⟨_, hfind, hsource, htext⟩
  · exact h

theorem text?_renew (h : (shelf.renew name source).text? m src = some u) :
    shelf.text? m src = some u := by
  unfold renew at h
  split at h
  · next held hheld =>
    obtain ⟨h', hfind, hsource, htext⟩ := text?_eq_some.1 h
    rcases find?_put hfind with ⟨rfl, rfl⟩ | hfind
    · split at htext
      · next heq =>
        rw [if_pos heq] at hsource
        exact text?_eq_some.2 ⟨_, hheld, hsource, htext⟩
      · cases htext
    · exact text?_eq_some.2 ⟨_, hfind, hsource, htext⟩
  · obtain ⟨h', hfind, hsource, htext⟩ := text?_eq_some.1 h
    rcases find?_put hfind with ⟨rfl, rfl⟩ | hfind
    · cases htext
    · exact text?_eq_some.2 ⟨_, hfind, hsource, htext⟩

theorem text?_note (h : (shelf.note name source text).text? m src = some u) :
    m = name ∧ src = source ∧ u = text ∨ shelf.text? m src = some u := by
  obtain ⟨held, hfind, hsource, htext⟩ := text?_eq_some.1 h
  obtain ⟨e, he, rfl⟩ := Option.map_eq_some_iff.1 hfind
  have hkey : ((·.1 == m) ∘ fun e : String × Held =>
      if e.1 = name ∧ e.2.source = source then (name, ⟨source, some text⟩) else e) =
        (·.1 == m) := by
    funext x
    by_cases hx : x.1 = name ∧ x.2.source = source <;> simp [hx]
  rw [note, List.find?_map, hkey] at he
  obtain ⟨x, hx, rfl⟩ := Option.map_eq_some_iff.1 he
  have hm : x.1 = m := by simpa using List.find?_some hx
  split at hsource
  · next hnote =>
    rw [if_pos hnote] at htext
    exact Or.inl ⟨hm.symm.trans hnote.1, hsource.symm, (Option.some.inj htext).symm⟩
  · next hother =>
    rw [if_neg hother] at htext
    exact Or.inr (text?_eq_some.2 ⟨x.2, by rw [find?, hx]; rfl, hsource, htext⟩)

end Shelf

/-- Every text that is kept of a template as it is now is the one that it prints now. -/
def Fits (lib : Library) (shelf : Option Shelf) : Prop :=
  ∀ s ∈ shelf, ∀ name source text, lib.source? name = some source →
    s.text? name source = some text → Prints lib name text

/-- What templates print without names stays the same, as far as they themselves do. -/
def Lasts (lib lib' : Library) : Prop :=
  ∀ name text, lib'.source? name = lib.source? name → Prints lib name text → Prints lib' name text

/-- A shelf fits several collections of templates. -/
def FitsAll (libs : List Library) (shelf : Option Shelf) : Prop := ∀ lib ∈ libs, Fits lib shelf

variable {lib : Library} {libs later : List Library} {shelf : Option Shelf} {name : String}

theorem FitsAll.map (h : FitsAll libs shelf) {change : Shelf → Shelf}
    (hchange : ∀ s name source text, (change s).text? name source = some text →
      s.text? name source = some text) : FitsAll libs (shelf.map change) := by
  intro lib hlib s' hs' name source text hsource htext
  obtain ⟨s, hs, rfl⟩ := Option.map_eq_some_iff.1 hs'
  exact h lib hlib s hs name source text hsource (hchange s name source text htext)

theorem source?_of_load {t : Template} (h : lib.load name = .ok t) :
    lib.source? name = some ((lib.source? name).getD []) := by
  unfold Library.load at h
  unfold Library.source?
  split at h
  · next hfind => rw [hfind]; rfl
  · cases h

/-- A text may be kept if it is the one that is printed now, and goes on to be printed. -/
theorem FitsAll.note {text : Text} (h : FitsAll (lib :: later) shelf)
    (hlast : ∀ lib' ∈ later, Lasts lib lib') (hprints : Prints lib name text) :
    FitsAll (lib :: later)
      (shelf.map (Shelf.note name ((lib.source? name).getD []) text)) := by
  intro lib' hlib' s' hs' m source u hsource htext
  obtain ⟨s, hs, rfl⟩ := Option.map_eq_some_iff.1 hs'
  rcases Shelf.text?_note htext with ⟨rfl, rfl, rfl⟩ | htext
  · rcases List.mem_cons.1 hlib' with rfl | hlib'
    · exact hprints
    · have hsource' := source?_of_load hprints.choose_spec.1
      exact hlast lib' hlib' _ _ (hsource.trans hsource'.symm) hprints
  · exact h lib' hlib' s hs m source u hsource htext

/-! ## Faithful computations -/

/-- With a shelf that fits, a computation comes to what it settles to, unless it is too deep, and
    the shelf fits afterwards. -/
def Faithful (libs : List Library) (α : Type) (P : α → Prop) (depth : Nat) (x : Nat → Run α) :
    Prop :=
  ∀ d : Desk, FitsAll libs d.shelf →
    FitsAll libs ((x depth).perform d).2.shelf ∧ Gives P ((x depth).perform d).1 ∧
      (((x depth).perform d).1 = .error .endless ∨
        Settles x d ((x depth).perform d).1 ((x depth).perform d).2)

variable {depth : Nat}

namespace Faithful

variable {P : α → Prop} {Q : β → Prop} {x : Nat → Run α} {f : Nat → α → Run β}

theorem bind (hx : Faithful libs α P depth x) (hf : ∀ a, P a → Faithful libs β Q depth (f · a)) :
    Faithful libs β Q depth fun depth => x depth >>= f depth := by
  intro d hfits
  obtain ⟨hfits', hgives, hsettles⟩ := hx d hfits
  rcases hperform : (x depth).perform d with ⟨e | a, d'⟩
  · simp only [Run.perform_bind, hperform] at hfits' hsettles ⊢
    refine ⟨hfits', .error, hsettles.imp (fun h => ?_) Settles.bind_error⟩
    cases h
    rfl
  · simp only [Run.perform_bind, hperform] at hfits' hsettles ⊢
    obtain ⟨hfits'', hgives', hrest⟩ := hf a (hgives a (by rw [hperform])) d' hfits'
    refine ⟨hfits'', hgives', hrest.imp_right fun hrest => ?_⟩
    exact (hsettles.resolve_left (by simp)).bind hrest

/-- A change of the desk that does not depend on the shelf. -/
theorem of_change (r : Result α) (hr : Gives P r) (d' : Desk → Desk)
    (h : ∀ depth d, (x depth).perform d = (r, d' d))
    (hfits : ∀ d, FitsAll libs d.shelf → FitsAll libs (d' d).shelf)
    (hwith : ∀ d, d' (d.with none) = (d' d).with none) : Faithful libs α P depth x := by
  intro d hd
  rw [h]
  refine ⟨hfits d hd, hr, Or.inr (Eventually.of_forall fun depth => ?_)⟩
  rw [h, hwith]

theorem apart (h : Faithful libs α P depth x) :
    Faithful libs α P depth fun depth => Run.apart (x depth) := by
  intro d hd
  obtain ⟨hfits, hgives, hsettles⟩ := h { d with loans := .untouched } hd
  rw [Run.perform_apart]
  exact ⟨hfits, hgives, hsettles.imp_right Settles.apart⟩

end Faithful

/-! ## The shelf -/

theorem Settles.keeping {make : Nat → Run Text} {d d' : Desk} {r : Result Text}
    (h : Settles make d r d') : Settles (fun depth => keeping lib name (make depth)) d r d' := by
  filter_upwards [h] with depth h
  have hnone : (d.with none).shelf.bind (Shelf.text? name ((lib.source? name).getD [])) = none :=
    rfl
  simp only [perform_keeping, hnone, h]
  cases r <;> rfl

theorem faithful_fetch (lib : Library) (name : String) :
    Faithful libs Template (fun t => lib.load name = .ok t) depth fun _ => fetch lib name := by
  cases hload : lib.load name with
  | ok t =>
    exact .of_change (.ok t) (.ok rfl) _ (fun _ => perform_fetch_ok hload)
      (fun _ h => h.map fun _ _ _ _ => Shelf.text?_renew) fun _ => rfl
  | error e =>
    exact .of_change (.error e) .error _ (fun _ => perform_fetch_error hload)
      (fun _ h => h.map fun _ _ _ _ => Shelf.text?_touch) fun _ => rfl

/-- A text is kept only where it fits, and where one that fits is kept it need not be made. -/
theorem faithful_keeping (hstill : lib.allowed .still = true)
    (hlast : ∀ lib' ∈ later, Lasts lib lib') {t : Template} (hload : lib.load name = .ok t)
    (h : Faithful (lib :: later) Text (fun _ => True) depth (bare · lib t)) :
    Faithful (lib :: later) Text (fun _ => True) depth
      fun depth => keeping lib name (bare depth lib t) := by
  intro d hfits
  rw [perform_keeping]
  cases hkept : d.shelf.bind (Shelf.text? name ((lib.source? name).getD [])) with
  | some text =>
    obtain ⟨s, hs, htext⟩ := Option.bind_eq_some_iff.1 hkept
    obtain ⟨t', hload', hsettles⟩ := hfits lib (List.mem_cons_self ..) s hs name _ text
      (source?_of_load hload) htext
    obtain rfl : t' = t := Except.ok.inj (hload'.symm.trans hload)
    exact ⟨hfits, .any, Or.inr (hsettles d).keeping⟩
  | none =>
    obtain ⟨hfits', -, hsettles⟩ := h d hfits
    rcases hperform : (bare depth lib t).perform d with ⟨e | text, d'⟩
    · rw [hperform] at hfits' hsettles
      exact ⟨hfits', .error, hsettles.imp_right Settles.keeping⟩
    · rw [hperform] at hfits' hsettles
      have hsettles := hsettles.resolve_left (by simp)
      exact ⟨hfits'.note hlast (prints_of_settles hstill hload hsettles), .any,
        Or.inr hsettles.keeping⟩

theorem compositional_faithful (hstill : lib.allowed .still = true)
    (hlast : ∀ lib' ∈ later, Lasts lib lib') :
    Compositional lib .any (Faithful (lib :: later)) where
  of_zero h _ hfits := by
    rw [h]
    exact ⟨hfits, .error, Or.inl rfl⟩
  of_succ h d hfits := ⟨(h d hfits).1, (h d hfits).2.1, (h d hfits).2.2.imp_right .of_succ⟩
  lift h := .of_change _ h id (fun _ _ => rfl) (fun _ h => h) fun _ => rfl
  bind hx hf := hx.bind hf
  loans d hfits := ⟨hfits, .any, Or.inr (Eventually.of_forall fun _ => rfl)⟩
  setBusy _ := .of_change (.ok ()) .any _ (fun _ _ => rfl) (fun _ h => h) fun _ => rfl
  put _ _ _ := .of_change (.ok ()) .any _ (fun _ _ => rfl) (fun _ h => h) fun _ => rfl
  draw _ _ d hfits := ⟨hfits, .any, Or.inr (Eventually.of_forall fun _ => rfl)⟩
  apart h := h.apart
  touch _ := .of_change (.ok ()) .any _ (fun _ _ => rfl)
    (fun _ h => h.map fun _ _ _ _ => Shelf.text?_touch) fun _ => rfl
  fetch name := faithful_fetch lib name
  keeping _ hload h := faithful_keeping hstill hlast hload h

theorem faithful_renderTo (hstill : lib.allowed .still = true)
    (hlast : ∀ lib' ∈ later, Lasts lib lib') (depth : Nat) (name : String) (context : Scope) :
    Faithful (lib :: later) Text (fun _ => True) depth
      fun depth => lib.renderTo depth name context :=
  (compositional_faithful hstill hlast).renderTo lib.allowed_any (allowedNames_any context) depth
    name

/-- A template is rendered to the same with any two shelves that fit, unless it is too deep. -/
theorem renderTo_eq {shelf' : Option Shelf} {depth depth' : Nat} {name : String} {context : Scope}
    {d : Desk} (hstill : lib.allowed .still = true) (h : Fits lib shelf) (h' : Fits lib shelf')
    (hdeep : ((lib.renderTo depth name context).perform (d.with shelf)).1 ≠ .error .endless)
    (hdeep' : ((lib.renderTo depth' name context).perform (d.with shelf')).1 ≠ .error .endless) :
    ((lib.renderTo depth name context).perform (d.with shelf)).1 =
      ((lib.renderTo depth' name context).perform (d.with shelf')).1 := by
  have hlast : ∀ lib' ∈ ([] : List Library), Lasts lib lib' := by simp
  have hfaithful (depth : Nat) (shelf : Option Shelf) (h : Fits lib shelf) :=
    (faithful_renderTo hstill hlast depth name context (d.with shelf)
      (by simpa [FitsAll, Desk.with] using h)).2.2
  have hs : Settles _ d _ _ := (hfaithful depth shelf h).resolve_left hdeep
  have hs' : Settles _ d _ _ := (hfaithful depth' shelf' h').resolve_left hdeep'
  exact hs.eq hs'

/-! ## Texts that no longer fit -/

namespace Shelf

variable {shelf : Shelf} {name m : String} {source src : List Char}

theorem find?_put_self (h : Held) : (shelf.put name h).find? name = some h := by
  simp [put, find?, room]

theorem find?_put_of_ne {h : Held} (hne : m ≠ name) (hroom : shelf.length < room) :
    (shelf.put name h).find? m = shelf.find? m := by
  have hlength : ((name, h) :: shelf.filter (·.1 != name)).length ≤ room := by
    have := List.length_filter_le (·.1 != name) shelf
    simp only [List.length_cons]
    omega
  rw [put, find?, List.take_of_length_le hlength, List.find?_cons_of_neg (by simpa using hne.symm),
    find?_others hne, find?]

theorem text?_renew_self :
    (shelf.renew name source).text? name source = shelf.text? name source := by
  unfold renew text?
  cases shelf.find? name with
  | none => simp [find?_put_self]
  | some h => by_cases hs : h.source = source <;> simp [find?_put_self, hs]

theorem text?_renew_of_ne (hne : m ≠ name) (hroom : shelf.length < room) :
    (shelf.renew name source).text? m src = shelf.text? m src := by
  unfold renew text?
  cases shelf.find? name <;> simp only [find?_put_of_ne hne hroom]

end Shelf

theorem templateNames_ofString (name : String) :
    templateNames (.text (Text.ofString name)) = .ok [name] := by
  have hname : templateName (.text (Text.ofString name)) = .ok name := by
    simp only [templateName, Value.useFully, bind, Except.bind, Text.toString?_ofString]
    rfl
  simp only [templateNames, Value.useFully, bind, Except.bind, List.mapM_cons, hname, List.mapM_nil]
  rfl

theorem perform_chooseTemplate {lib : Library} {name : String} {t : Template} (mayBeMissing : Bool)
    (hload : lib.load name = .ok t) (d : Desk) :
    (chooseTemplate lib mayBeMissing (.text (Text.ofString name))).perform d =
      (.ok (some (name, t)),
        { d with shelf := d.shelf.map (Shelf.renew name ((lib.source? name).getD [])) }) := by
  have hsource : (lib.source? name).isSome = true := by rw [source?_of_load hload]; rfl
  simp only [chooseTemplate, Value.look, templateNames_ofString, firstTemplate, hsource, if_true,
    Run.perform_bind, Run.perform_loans, Run.perform_liftM, perform_fetch_ok hload,
    Run.perform_pure]

/-- Inserting a template without names prints the text that is kept of it. -/
theorem perform_exec_kept {lib : Library} {d : Desk} {shelf : Shelf} {name : String} {t : Template}
    {text : Text} (depth : Nat) (st : State) (mayBeMissing : Bool) (hload : lib.load name = .ok t)
    (hkept : shelf.text? name ((lib.source? name).getD []) = some text) :
    (exec (depth + 2) lib st (.insert (.literal (.string (Text.ofString name))) mayBeMissing
      false)).perform (d.with (some shelf)) =
      (.ok (st.print text), d.with (some (shelf.renew name ((lib.source? name).getD [])))) := by
  rw [exec, eval, pure_bind, Literal.value, Run.perform_bind,
    perform_chooseTemplate mayBeMissing hload]
  simp only [Bool.false_eq_true, if_false, Run.perform_bind, perform_keeping, Desk.with,
    Option.map_some, Option.bind_some, Shelf.text?_renew_self, hkept, Run.perform_pure]

/-- A template that only inserts another one, without names, prints the text that is kept of it. -/
theorem perform_renderTo_kept {lib : Library} {d : Desk} {shelf : Shelf} {a b : String}
    {t : Template} {mayBeMissing : Bool} {context : Scope} {text : Text} (depth : Nat)
    (ha : lib.load a = .ok ⟨[.insert (.literal (.string (Text.ofString b))) mayBeMissing false]⟩)
    (hb : lib.load b = .ok t) (hself : context.get? "self" = none)
    (hroom : shelf.length < Shelf.room)
    (hkept : shelf.text? b ((lib.source? b).getD []) = some text) :
    ((lib.renderTo (depth + 4) a context).perform (d.with (some shelf))).1 = .ok text := by
  -- reading the first template again does not take the text of the other off the shelf
  have hkept' : (shelf.renew a ((lib.source? a).getD [])).text? b ((lib.source? b).getD []) =
      some text := by
    by_cases hab : b = a
    · rw [hab, Shelf.text?_renew_self, ← hab, hkept]
    · rw [Shelf.text?_renew_of_ne hab hroom, hkept]
  have hexec (st : State) := perform_exec_kept (d := d) depth st mayBeMissing hb hkept'
  have hfetch : (fetch lib a).perform (d.with (some shelf)) =
      (.ok _, d.with (some (shelf.renew a ((lib.source? a).getD [])))) := perform_fetch_ok ha _
  simp only [Library.renderTo, Run.perform_bind, hfetch, hself, Option.isSome_none,
    Bool.false_eq_true, if_false]
  rw [renderRoot, execAll, List.foldlM_cons, Run.perform_bind, Run.perform_bind, hexec]
  simp [State.printed, State.print, State.initial]

end Scaffold.Template
