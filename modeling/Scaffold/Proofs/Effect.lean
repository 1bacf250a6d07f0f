/-
  What effects, steps and renderings do: the result and the state after each of the ways to build
  them.

  `perform_bind` runs one computation after another; the rest are the computations that are run.
-/
import Mathlib
import Scaffold.Generator.Basic

namespace Scaffold

/-! ## Effects -/

namespace Effect

variable {α β : Type}

theorem perform_bind (t : Effect α) (f : α → Effect β) (w : World) :
    (t >>= f).perform w =
      match t.perform w with
      | (.ok a, w) => (f a).perform w
      | (.error e, w) => (.error e, w) := by
  rcases h : t.perform w with ⟨e | a, w'⟩
  · exact congrArg (fun x => ExceptT.bindCont f x.1 x.2) h
  · exact congrArg (fun x => ExceptT.bindCont f x.1 x.2) h

@[simp] theorem perform_pure (a : α) (w : World) :
    (pure a : Effect α).perform w = (.ok a, w) := rfl

@[simp] theorem perform_throw (f : Failure) (w : World) :
    (throw f : Effect α).perform w = (.error f, w) := rfl

@[simp] theorem perform_get (w : World) : (get : Effect World).perform w = (.ok w, w) := rfl

@[simp] theorem perform_report (level : Level) (message : String) (fields : List (String × Json))
    (w : World) :
    (report level message fields).perform w =
      (.ok (), { w with reported := ⟨level, message, fields⟩ :: w.reported }) := rfl

@[simp] theorem perform_ofResult (r : Except Failure α) (w : World) :
    (ofResult r).perform w = (r, w) := by
  cases r <;> rfl

@[simp] theorem perform_query (q : Store → Except Failure α) (w : World) :
    (query q).perform w = (q w.store, w) := by
  simp [query, perform_bind]

@[simp] theorem perform_outcome (t : Effect α) (w : World) :
    (outcome t).perform w = (.ok (t.perform w).1, (t.perform w).2) := rfl

theorem perform_update (change : Store → Except Failure Store) (w : World) :
    (update change).perform w =
      match change w.store with
      | .ok s => (.ok (), { w with store := s })
      | .error f => (.error f, w) := by
  simp only [update, perform_bind, perform_get]
  cases change w.store <;> rfl

theorem perform_makeDirs (p : Path) (w : World) :
    (makeDirs p).perform w =
      ((w.store.makeDirs p).1, { w with store := (w.store.makeDirs p).2 }) := by
  simp only [makeDirs, perform_bind, perform_get]
  show (ofResult _).perform _ = _
  rw [perform_ofResult]

end Effect

/-! ## Steps -/

namespace Generator.Step

variable {α β : Type}

theorem perform_bind (s : Step α) (f : α → Step β) (g : Generator) (w : World) :
    (s >>= f).perform g w =
      match s.perform g w with
      | (.ok a, g, w) => (f a).perform g w
      | (.error e, g, w) => (.error e, g, w) := by
  have hbind {r : (Except Failure α × Generator) × World} (h : s.run g w = r) :
      (s >>= f).run g w = ExceptT.bindCont f r.1.1 r.1.2 r.2 := by
    rw [← h]; rfl
  rcases h : s.run g w with ⟨⟨e | a, g'⟩, w'⟩
  · have hp : s.perform g w = (.error e, g', w') := by rw [perform, h]
    rw [hp, perform, hbind h]
    rfl
  · have hp : s.perform g w = (.ok a, g', w') := by rw [perform, h]
    rw [hp, perform, hbind h]
    rfl

@[simp] theorem perform_pure (a : α) (g : Generator) (w : World) :
    (pure a : Step α).perform g w = (.ok a, g, w) := rfl

@[simp] theorem perform_throw (f : Failure) (g : Generator) (w : World) :
    (throw f : Step α).perform g w = (.error f, g, w) := rfl

@[simp] theorem perform_get (g : Generator) (w : World) :
    (get : Step Generator).perform g w = (.ok g, g, w) := rfl

@[simp] theorem perform_modify (change : Generator → Generator) (g : Generator) (w : World) :
    (modify change : Step Unit).perform g w = (.ok (), change g, w) := rfl

@[simp] theorem perform_ofEffect (t : Effect α) (g : Generator) (w : World) :
    (ofEffect t).perform g w = ((t.perform w).1, g, (t.perform w).2) := rfl

theorem perform_guarded (name : String) (s : Step α) (g : Generator) (w : World) :
    (guarded name s).perform g w =
      (guardStep .generator name (s.perform g w).1, (s.perform g w).2) := rfl

end Generator.Step

/-! ## Renderings -/

namespace Template.Run

variable {α β : Type}

theorem perform_bind (x : Run α) (f : α → Run β) (d : Desk) :
    (x >>= f).perform d =
      match x.perform d with
      | (.ok a, d) => (f a).perform d
      | (.error e, d) => (.error e, d) := by
  rcases h : x.perform d with ⟨e | a, d'⟩
  · exact congrArg (fun x => ExceptT.bindCont f x.1 x.2) h
  · exact congrArg (fun x => ExceptT.bindCont f x.1 x.2) h

@[simp] theorem perform_pure (a : α) (d : Desk) : (pure a : Run α).perform d = (.ok a, d) := rfl

@[simp] theorem perform_throw (f : TemplateFault) (d : Desk) :
    (throw f : Run α).perform d = (.error f, d) := rfl

@[simp] theorem perform_get (d : Desk) : (get : Run Desk).perform d = (.ok d, d) := rfl

@[simp] theorem perform_liftM (r : Result α) (d : Desk) :
    (liftM r : Run α).perform d = (r, d) := rfl

@[simp] theorem perform_onShelf (change : Shelf → Shelf) (d : Desk) :
    (onShelf change).perform d = (.ok (), { d with shelf := d.shelf.map change }) := rfl

@[simp] theorem perform_loans (d : Desk) : loans.perform d = (.ok d.loans, d) := rfl

@[simp] theorem perform_setBusy (spots : List Spot) (d : Desk) :
    (setBusy spots).perform d = (.ok (), { d with loans := { d.loans with busy := spots } }) := rfl

@[simp] theorem perform_put (spot : Spot) (ps : Positions) (d : Desk) :
    (put spot ps).perform d = (.ok (), { d with loans := d.loans.put spot ps }) := rfl

@[simp] theorem perform_draw (n : Nat) (d : Desk) :
    (draw n).perform d = (.ok (d.luck 0 % n), { d with luck := d.luck.after 1 }) := rfl

@[simp] theorem perform_apart (x : Run α) (d : Desk) :
    (apart x).perform d = ((x.perform { d with loans := .untouched }).1,
      { (x.perform { d with loans := .untouched }).2 with loans := d.loans }) := rfl

end Template.Run

namespace Template

variable {lib : Library} {name : String}

theorem perform_fetch_ok {t : Template} (h : lib.load name = .ok t) (d : Desk) :
    (fetch lib name).perform d =
      (.ok t, { d with shelf := d.shelf.map (Shelf.renew name ((lib.source? name).getD [])) }) := by
  simp only [fetch, h, Run.perform_bind, Run.perform_onShelf, Run.perform_pure]

theorem perform_fetch_error {f : TemplateFault} (h : lib.load name = .error f) (d : Desk) :
    (fetch lib name).perform d =
      (.error f, { d with shelf := d.shelf.map (Shelf.touch name) }) := by
  simp only [fetch, h, Run.perform_bind, Run.perform_onShelf, Run.perform_throw]

theorem perform_keeping (make : Run Text) (d : Desk) :
    (keeping lib name make).perform d =
      match d.shelf.bind (Shelf.text? name ((lib.source? name).getD [])) with
      | some text => (.ok text, d)
      | none =>
        match make.perform d with
        | (.error e, d) => (.error e, d)
        | (.ok text, d) =>
          let change := Shelf.note name ((lib.source? name).getD []) text
          (.ok text, { d with shelf := d.shelf.map change }) := by
  simp only [keeping, Run.perform_bind, Run.perform_get]
  cases d.shelf.bind (Shelf.text? name ((lib.source? name).getD [])) with
  | some text => rfl
  | none =>
    simp only [Run.perform_bind]
    rcases make.perform d with ⟨e | text, d'⟩ <;> rfl

end Template

end Scaffold
