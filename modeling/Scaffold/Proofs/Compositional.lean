/-
  What holds of the parts of a rendering holds of the rendering.

  A property of computations, with what they come to, is `Compositional` if it holds of those that
  are put together from others of which it holds. All functions of the renderer call each other one
  step less deep, so they have the property together, by induction on the depth (`Traversed.succ`);
  the statements that they run stay allowed on the way (`State.Allowed`).
-/
import Mathlib
import Scaffold.Proofs.Routines

namespace Scaffold.Template

variable {p : Permit}

/-! ## States -/

theorem allowed_get? {s : Scope} {name : String} {v : Value} (h : allowedNames p s = true)
    (hv : s.get? name = some v) : v.allowed p = true := by
  obtain ⟨e, he, rfl⟩ := Option.map_eq_some_iff.1 hv
  exact allowedNames_iff.1 h e (List.mem_of_find?_eq_some he)

theorem allowedNames_put {s : Scope} {v : Value} (name : String) (h : allowedNames p s = true)
    (hv : v.allowed p = true) : allowedNames p (s.put name v) = true := by
  induction s with
  | nil => simp [Scope.put, allowedNames, hv]
  | cons e rest ih =>
    obtain ⟨k, w⟩ := e
    simp only [allowedNames, Bool.and_eq_true] at h
    unfold Scope.put
    split
    · simp [allowedNames, h, hv]
    · simp [allowedNames, h, ih h.2]

theorem allowedNames_update {s others : Scope} (h : allowedNames p s = true)
    (hothers : allowedNames p others = true) : allowedNames p (s.update others) = true :=
  List.foldlRecOn (motive := (allowedNames p · = true)) _ _ h fun _ hs e he =>
    allowedNames_put e.1 hs (allowedNames_iff.1 hothers e he)

namespace State

/-- All statements that can be reached from a state are allowed. -/
structure Allowed (p : Permit) (st : State) : Prop where
  context : allowedNames p st.context = true
  vars : allowedNames p st.vars = true
  scopes : allowedScopes p st.scopes = true
  blocks : ∀ b ∈ st.blocks, ∀ body ∈ b.2, allowedIn p body = true
  parent : ∀ t ∈ st.parent, allowedIn p t.body = true

theorem allowed_initial {context : Scope} {t : Template}
    (hcontext : allowedNames p context = true)
    (ht : allowedIn p t.body = true) : (initial context t).Allowed p where
  context := hcontext
  vars := rfl
  scopes := rfl
  blocks := by
    refine List.forall_mem_map.2 fun b hb body hbody => ?_
    rw [List.mem_singleton.1 hbody]
    exact allowedIn_blocks t.body ht b hb
  parent := nofun

namespace Allowed

variable {st : State} (h : st.Allowed p)

include h

theorem print (t : Text) : (st.print t).Allowed p := { h with }

theorem push {scope : Scope} (hscope : allowedNames p scope = true) :
    ({ st with scopes := scope :: st.scopes } : State).Allowed p :=
  { h with scopes := by rw [allowedScopes, hscope, h.scopes]; rfl }

theorem get (name : String) : (st.get name).allowed p = true := by
  unfold State.get
  split
  · next v hv =>
    obtain ⟨s, hs, hv⟩ := List.exists_of_findSome?_eq_some hv
    exact allowed_get? (allowedScopes_iff.1 h.scopes s hs) hv
  split
  · unfold replaced
    split
    · rfl
    · rfl
  split
  · rfl
  split
  · next v hv => exact allowed_get? h.vars hv
  split
  · next v hv => exact allowed_get? h.context hv
  split
  · rfl
  · rfl

theorem set {v : Value} (name : String) (hv : v.allowed p = true) :
    (st.set name v).Allowed p := by
  unfold State.set
  split
  · exact { h with vars := allowedNames_put name h.vars hv }
  · next s rest hscopes =>
    have hs := h.scopes
    rw [hscopes, allowedScopes, Bool.and_eq_true] at hs
    exact { h with scopes := by rw [allowedScopes, allowedNames_put name hs.1 hv, hs.2]; rfl }

theorem bodies (name : String) (level : Nat) :
    allowedIn p (((st.bodies name)[level]?).getD []) = true := by
  unfold State.bodies
  cases hb : st.blocks.find? (·.1 == name) with
  | none => rfl
  | some b =>
    cases hbody : b.2[level]? with
    | none => simp [hbody, allowedIn]
    | some body =>
      simpa [hbody] using
        h.blocks b (List.mem_of_find?_eq_some hb) body (List.mem_of_getElem? hbody)

theorem visible : allowedNames p st.visible = true := by
  refine List.foldlRecOn (motive := (allowedNames p · = true)) _ _
    (allowedNames_update h.context h.vars) fun s hs scope hscope => ?_
  exact allowedNames_update hs (allowedScopes_iff.1 h.scopes scope (List.mem_reverse.1 hscope))

theorem inherit {t : Template} (ht : allowedIn p t.body = true) :
    ({ st.addBlocks t.blocks with parent := some t } : State).Allowed p where
  context := h.context
  vars := h.vars
  scopes := h.scopes
  blocks := by
    refine List.foldlRecOn (motive := fun (bs : List (String × List (List Stmt))) =>
      ∀ b ∈ bs, ∀ body ∈ b.2, allowedIn p body = true) _ _ h.blocks fun bs hbs b hb => ?_
    have hbody := allowedIn_blocks t.body ht b hb
    split
    · refine List.forall_mem_map.2 fun e he => ?_
      split
      · exact List.forall_mem_append.2 ⟨hbs e he, by simpa using hbody⟩
      · exact hbs e he
    · exact List.forall_mem_append.2 ⟨hbs, by simpa using hbody⟩
  parent _ hp := Option.mem_some.1 hp ▸ ht

end Allowed

end State

mutual

theorem Binder.gives_assign (l : Loans) (b : Binder) {v : Value} {st : State}
    (hv : v.allowed p = true) (h : st.Allowed p) : Gives (State.Allowed p) (b.assign l v st) := by
  cases b with
  | name s => exact .ok (h.set s hv)
  | member => exact .error
  | tuple parts =>
    unfold Binder.assign
    split
    · exact .error
    · next vs hvs =>
      have hvs := Value.gives_items (Value.allowed_look l hv) vs hvs
      exact .ite (gives_assignAll l parts hvs h) .error

theorem gives_assignAll (l : Loans) (bs : List Binder) {vs : List Value} {st : State}
    (hvs : ∀ v ∈ vs, v.allowed p = true) (h : st.Allowed p) :
    Gives (State.Allowed p) (assignAll l bs vs st) := by
  cases bs with
  | nil => exact .ok h
  | cons b bs =>
    cases vs with
    | nil => exact .ok h
    | cons v vs =>
      rw [List.forall_mem_cons] at hvs
      unfold assignAll
      split
      · exact .error
      · next st' hst => exact gives_assignAll l bs hvs.2 (b.gives_assign l hvs.1 h st' hst)

end

theorem Literal.lookThrough_value (lit : Literal) (l : Loans) :
    lit.value.lookThrough l = lit.value := by
  cases lit <;> rfl

/-- An index that is written out and names no function of lists. -/
theorem Expr.exists_literal {i : Expr} (h : i.isSparing = true) :
    ∃ lit, i = .literal lit ∧ ∀ t, lit.value = .text t →
      t.toString?.all Template.isSparing = true := by
  unfold Expr.isSparing at h
  split at h
  · next t => exact ⟨.string t, rfl, fun t' ht' => Value.text.inj ht' ▸ h⟩
  · next lit hlit =>
    refine ⟨lit, rfl, fun t ht => ?_⟩
    cases lit with
    | string s => exact absurd rfl (hlit s)
    | none | bool | whole | fraction => cases ht
  · cases h

theorem mem_of_mem_positioned {α : Type} {start : Nat} {l : List α} {e : Nat × α}
    (h : e ∈ positioned start l) : e.2 ∈ l := by
  induction l generalizing start with
  | nil => cases h
  | cons a l ih =>
    rcases List.mem_cons.1 h with rfl | h
    · exact List.mem_cons_self ..
    · exact List.mem_cons_of_mem a (ih h)

/-! ## Libraries -/

/-- Whether the statements of all templates that can be read are allowed. -/
def Library.allowed (p : Permit) (lib : Library) : Bool :=
  lib.all fun e => (compile e.1 e.2).toOption.all fun t => allowedIn p t.body

theorem Library.allowedIn_of_load {lib : Library} {name : String} {t : Template}
    (h : lib.allowed p = true) (ht : lib.load name = .ok t) :
    allowedIn p t.body = true := by
  unfold Library.load at ht
  split at ht
  · next n source hfind =>
    have hn : n = name := by simpa using List.find?_some hfind
    have he := List.all_eq_true.1 h _ (List.mem_of_find?_eq_some hfind)
    rw [hn, ht] at he
    exact he
  · cases ht

theorem Library.allowed_any (lib : Library) : lib.allowed .any = true :=
  List.all_eq_true.2 fun _ _ => (Option.all_eq_true _ _).2 fun t _ => allowedIn_any t.body

/-! ## Compositional properties -/

/-- The text of a template that is given no names. -/
def bare (depth : Nat) (lib : Library) (t : Template) : Run Text := Run.apart do
  let after ← renderRoot depth lib t (.initial [] t)
  return after.printed

/-- A property of computations at a depth, and of what they come to. -/
abbrev Property := (α : Type) → (α → Prop) → Nat → (Nat → Run α) → Prop

/-- A property that holds of computations if it holds of those they are put together from. What
    has to be permitted is asked for only where it is: drawing, taking items out of lists, and
    looking for the text that is kept of a template without names. -/
structure Compositional (lib : Library) (p : Permit) (Good : Property) : Prop where
  of_zero : ∀ {α : Type} {P : α → Prop} {x : Nat → Run α}, x 0 = throw .endless → Good α P 0 x
  of_succ : ∀ {α : Type} {P : α → Prop} {depth : Nat} {x : Nat → Run α},
    Good α P depth (fun depth => x (depth + 1)) → Good α P (depth + 1) x
  lift : ∀ {α : Type} {P : α → Prop} {depth : Nat} {r : Result α}, Gives P r →
    Good α P depth fun _ => liftM r
  bind : ∀ {α β : Type} {P : α → Prop} {Q : β → Prop} {depth : Nat} {x : Nat → Run α}
    {f : Nat → α → Run β}, Good α P depth x → (∀ a, P a → Good β Q depth (f · a)) →
    Good β Q depth fun depth => x depth >>= f depth
  loans : ∀ {depth : Nat}, Good Loans (fun _ => True) depth fun _ => Run.loans
  setBusy : ∀ {depth : Nat} (spots : List Spot),
    Good Unit (fun _ => True) depth fun _ => Run.setBusy spots
  put : ∀ {depth : Nat} (spot : Spot) (ps : Positions), p.takes = true →
    Good Unit (fun _ => True) depth fun _ => Run.put spot ps
  draw : ∀ {depth : Nat} (n : Nat), p.draws = true →
    Good Nat (fun _ => True) depth fun _ => Run.draw n
  apart : ∀ {α : Type} {P : α → Prop} {depth : Nat} {x : Nat → Run α}, Good α P depth x →
    Good α P depth fun depth => Run.apart (x depth)
  touch : ∀ {depth : Nat} (name : String), Good Unit (fun _ => True) depth fun _ =>
    Run.onShelf (Shelf.touch name)
  fetch : ∀ {depth : Nat} (name : String), Good Template (fun t => lib.load name = .ok t) depth
    fun _ => fetch lib name
  keeping : ∀ {depth : Nat} {name : String} {t : Template}, p.nameless = true →
    lib.load name = .ok t → Good Text (fun _ => True) depth (bare · lib t) →
    Good Text (fun _ => True) depth fun depth => keeping lib name (bare depth lib t)

namespace Compositional

variable {lib : Library} {Good : Property} {depth : Nat} {α β : Type} {P : α → Prop}
  {Q : β → Prop} {x y : Nat → Run α}

theorem either {c : Prop} [Decidable c] (hx : Good α P depth x) (hy : Good α P depth y) :
    Good α P depth fun depth => if c then x depth else y depth := by
  split
  · exact hx
  · exact hy

variable (hc : Compositional lib p Good)

include hc

theorem pure {a : α} (h : P a) : Good α P depth fun _ => Pure.pure a := hc.lift (.ok h)

theorem throw {e : TemplateFault} : Good α P depth fun _ => MonadExcept.throw e := hc.lift .error

theorem mapM {f : Nat → β → Run α} {l : List β} (h : ∀ b ∈ l, Good α P depth (f · b)) :
    Good (List α) (fun as => ∀ a ∈ as, P a) depth fun depth => l.mapM (f depth) := by
  induction l with
  | nil => exact hc.pure (by simp)
  | cons b l ih =>
    rw [List.forall_mem_cons] at h
    simp only [List.mapM_cons]
    exact hc.bind h.1 fun a ha => hc.bind (ih h.2) fun as has => hc.pure (by simpa using ⟨ha, has⟩)

theorem foldlM {f : Nat → α → β → Run α} {l : List β} {a : α} (ha : P a)
    (h : ∀ a b, P a → b ∈ l → Good α P depth (f · a b)) :
    Good α P depth fun depth => l.foldlM (f depth) a := by
  induction l generalizing a with
  | nil => exact hc.pure ha
  | cons b l ih =>
    simp only [List.foldlM_cons]
    refine hc.bind (h a b ha (by simp)) fun a' ha' => ih ha' fun a b ha hb => ?_
    exact h a b ha (List.mem_cons_of_mem _ hb)

theorem filterM {f : Nat → α → Run Bool} {l : List α} (hl : ∀ a ∈ l, P a)
    (h : ∀ a ∈ l, Good Bool (fun _ => True) depth (f · a)) :
    Good (List α) (fun as => ∀ a ∈ as, P a) depth fun depth => l.filterM (f depth) := by
  have haux (acc : List α) (hacc : ∀ a ∈ acc, P a) :
      Good (List α) (fun as => ∀ a ∈ as, P a) depth fun depth => l.filterAuxM (f depth) acc := by
    induction l generalizing acc with
    | nil => exact hc.pure hacc
    | cons a l ih =>
      rw [List.forall_mem_cons] at hl h
      simp only [List.filterAuxM]
      refine hc.bind h.1 fun b _ => ih hl.2 h.2 _ ?_
      cases b with
      | false => exact hacc
      | true => exact List.forall_mem_cons.2 ⟨hl.1, hacc⟩
  exact hc.bind (haux [] (by simp)) fun as has =>
    hc.pure fun a ha => has a (List.mem_reverse.1 ha)

theorem optionMapM {f : Nat → β → Run α} {o : Option β} (h : ∀ b ∈ o, Good α P depth (f · b)) :
    Good (Option α) (fun a => ∀ b ∈ a, P b) depth fun depth => o.mapM (f depth) := by
  cases o with
  | none => exact hc.pure (by simp)
  | some b => exact hc.bind (h b rfl) fun a ha => hc.pure (by simpa using ha)

theorem within_ {run : Nat → State → Run State} {scope : Scope} {st : State}
    (hst : st.Allowed p) (hscope : allowedNames p scope = true)
    (h : ∀ inner, inner.Allowed p → Good State (State.Allowed p) depth (run · inner)) :
    Good State (State.Allowed p) depth fun depth => st.within_ scope (run depth) :=
  hc.bind (h _ (hst.push hscope)) fun _ _ => hc.pure { hst with }

theorem firstTemplate (names : List String) :
    Good (Option (String × Template)) (fun o => ∀ p ∈ o, lib.load p.1 = .ok p.2) depth
      fun _ => firstTemplate lib names := by
  induction names with
  | nil => exact hc.pure (by simp)
  | cons n rest ih =>
    simp only [Template.firstTemplate]
    split
    · exact hc.bind (hc.fetch n) fun t ht => hc.pure (by simpa using ht)
    · exact hc.bind (hc.touch n) fun _ _ => ih

/-- What depends on what is left of the lists that are lent. -/
theorem looking {f : Loans → Result α} (h : ∀ l, Gives P (f l)) :
    Good α P depth fun _ => Run.loans >>= fun l => liftM (f l) :=
  hc.bind hc.loans fun l _ => hc.lift (h l)

theorem truth (v : Value) : Good Bool (fun _ => True) depth fun _ => Run.truth v :=
  hc.looking fun _ => .any

theorem text (v : Value) : Good Text (fun _ => True) depth fun _ => Run.text v :=
  hc.looking fun _ => .any

theorem items {v : Value} (hv : v.allowed p = true) :
    Good (List Value) (fun items => ∀ w ∈ items, w.allowed p = true) depth fun _ => Run.items v :=
  hc.looking fun l => Value.gives_items (Value.allowed_look l hv)

theorem assign (b : Binder) {v : Value} {st : State} (hv : v.allowed p = true)
    (hst : st.Allowed p) : Good State (State.Allowed p) depth fun _ => Run.assign b v st :=
  hc.looking fun l => b.gives_assign l hv hst

theorem occupying (v : Value) (h : Good α P depth x) :
    Good α P depth fun depth => Run.occupying v (x depth) := by
  unfold Run.occupying
  split
  · exact hc.bind hc.loans fun l _ => hc.bind (hc.setBusy _) fun _ _ => hc.bind h fun _ ha =>
      hc.bind (hc.setBusy _) fun _ _ => hc.pure ha
  · exact h

theorem change {items : List Value} (spot : Spot) (name : String) (g : Given)
    (hp : p.takes = true) (hitems : allowedItems p items = true) :
    Good Value (Value.allowed p · = true) depth fun _ => Run.change spot items name g := by
  refine hc.bind hc.loans fun l _ => either hc.throw (hc.bind (hc.lift .any) fun r _ =>
    hc.bind (hc.put spot r.2 hp) fun _ _ => hc.pure ?_)
  cases h : r.1.bind fun i => items[i]? with
  | none => rfl
  | some w =>
    obtain ⟨i, _, hi⟩ := Option.bind_eq_some_iff.1 h
    exact allowedItems_iff.1 hitems w (List.mem_of_getElem? hi)

theorem callMethod {v : Value} {name : String} {g : Given}
    (hv : (Value.method v name).allowed p = true) (hg : g.Allowed p) :
    Good Value (Value.allowed p · = true) depth fun _ => Run.callMethod v name g := by
  obtain ⟨hp, hv⟩ := Bool.and_eq_true_iff.1 hv
  unfold Run.callMethod
  split
  · exact hc.change _ name g (by simpa [Value.isLent] using hp) hv
  · exact hc.looking fun l => .ite (Value.gives_callTextMethod _ _ _) .error
  · exact hc.lift (Value.gives_callMethod name hv hg)

theorem pickFrom {v : Value} (hp : p.draws = true) (hv : v.allowed p = true) :
    Good Value (Value.allowed p · = true) depth fun _ => Run.pickFrom v := by
  refine hc.bind (hc.lift .any) fun n _ => ?_
  split
  · exact hc.pure rfl
  · refine hc.bind (hc.draw _ hp) fun i _ => ?_
    split
    · next w hw => exact hc.pure (Value.allowed_element? hv hw)
    · exact hc.throw
    · exact hc.throw

theorem filter {v : Value} {name : String} {g : Given} (hp : p.draws = true ∨ name ≠ "random")
    (hv : v.allowed p = true) (hg : g.Allowed p) :
    Good Value (Value.allowed p · = true) depth fun _ => Run.filter name v g := by
  unfold Run.filter
  split
  · next hname =>
    have hp := hp.resolve_right fun h => h (by simpa using hname)
    exact hc.bind (hc.lift .any) fun _ _ => hc.bind hc.loans fun l _ =>
      hc.pickFrom hp (Value.allowed_look l hv)
  · exact hc.looking fun l => Value.gives_applyFilter l name hv hg

theorem chooseTemplate (mayBeMissing : Bool) (v : Value) :
    Good (Option (String × Template)) (fun o => ∀ p ∈ o, lib.load p.1 = .ok p.2) depth
      fun _ => chooseTemplate lib mayBeMissing v := by
  refine hc.bind hc.loans fun _ _ => hc.bind (hc.lift .any) fun names _ =>
    hc.bind (hc.firstTemplate names) fun o ho => ?_
  cases o with
  | some p => exact hc.pure ho
  | none => exact either (hc.pure (by simp)) hc.throw

end Compositional

/-! ## Rendering -/

/-- All functions of the renderer have a property at a depth, wherever what they run is allowed. -/
structure Traversed (lib : Library) (p : Permit) (Good : Property) (depth : Nat) : Prop where
  literal : ∀ {st} l, Good Value (· = Literal.value l) depth
    fun depth => eval depth lib st (.literal l)
  eval : ∀ {st e}, st.Allowed p → e.allowed p = true →
    Good Value (Value.allowed p · = true) depth fun depth => eval depth lib st e
  evalChain : ∀ {st rest} v, st.Allowed p → allowedCompared p rest = true →
    Good Value (Value.allowed p · = true) depth fun depth => evalChain depth lib st v rest
  evalGiven : ∀ {st args named}, st.Allowed p → allowedExprs p args = true →
    allowedArgs p named = true →
    Good Given (Given.Allowed p) depth fun depth => evalGiven depth lib st args named
  call : ∀ {st f g}, st.Allowed p → f.allowed p = true → g.Allowed p →
    Good Value (Value.allowed p · = true) depth fun depth => call depth lib st f g
  bindParams : ∀ {st params}, st.Allowed p → (∀ q ∈ params, allowedOption p q.1.2 = true) →
    (∀ q ∈ params, ∀ v ∈ q.2, v.allowed p = true) →
    Good State (State.Allowed p) depth fun depth => bindParams depth lib st params
  blockText : ∀ {st} name level isOpen, st.Allowed p →
    Good Text (fun _ => True) depth fun depth => blockText depth lib st name level isOpen
  execAll : ∀ {st body}, st.Allowed p → allowedIn p body = true →
    Good State (State.Allowed p) depth fun depth => execAll depth lib st body
  exec : ∀ {st s}, st.Allowed p → s.allowed p = true →
    Good State (State.Allowed p) depth fun depth => exec depth lib st s
  execCases : ∀ {st cases orElse}, st.Allowed p → allowedInCases p cases = true →
    allowedIn p orElse = true →
    Good State (State.Allowed p) depth fun depth => execCases depth lib st cases orElse
  renderRoot : ∀ {t st}, allowedIn p t.body = true → st.Allowed p →
    Good State (State.Allowed p) depth fun depth => renderRoot depth lib t st

namespace Traversed

open Compositional (either)

variable {lib : Library} {Good : Property} {depth : Nat} {st : State}
  (hc : Compositional lib p Good)

include hc

theorem zero : Traversed lib p Good 0 where
  literal l := hc.of_zero (by rw [Template.eval])
  eval _ _ := hc.of_zero (by rw [Template.eval])
  evalChain v _ _ := hc.of_zero (by rw [Template.evalChain])
  evalGiven _ _ _ := hc.of_zero (by rw [Template.evalGiven])
  call _ _ _ := hc.of_zero (by rw [Template.call])
  bindParams _ _ _ := hc.of_zero (by rw [Template.bindParams])
  blockText name level isOpen _ := hc.of_zero (by rw [Template.blockText])
  execAll _ _ := hc.of_zero (by rw [Template.execAll])
  exec _ _ := hc.of_zero (by rw [Template.exec])
  execCases _ _ _ := hc.of_zero (by rw [Template.execCases])
  renderRoot _ _ := hc.of_zero (by rw [Template.renderRoot])

variable (h : Traversed lib p Good depth)

include h

omit h in
theorem literal_succ (l : Literal) : Good Value (· = l.value) (depth + 1)
    fun depth => Template.eval depth lib st (.literal l) := by
  refine hc.of_succ ?_
  simp only [Template.eval]
  exact hc.pure rfl

theorem exprs {es : List Expr} (hst : st.Allowed p) (hes : allowedExprs p es = true) :
    Good (List Value) (fun vs => ∀ v ∈ vs, v.allowed p = true) depth
      fun depth => es.mapM (Template.eval depth lib st) :=
  hc.mapM fun e he => h.eval hst (allowedExprs_iff.1 hes e he)

theorem option {o : Option Expr} (hst : st.Allowed p) (ho : allowedOption p o = true) :
    Good (Option Value) (fun o => ∀ v ∈ o, v.allowed p = true) depth
      fun depth => o.mapM (Template.eval depth lib st) :=
  hc.optionMapM fun e he => h.eval hst (allowedOption_iff.1 ho e he)

/-- An element, which is looked up under an index that is written out where lists may not be
    changed. -/
theorem index {e i : Expr} (hst : st.Allowed p)
    (hindex : (Expr.index e i).allowed p = true) :
    Good Value (Value.allowed p · = true) depth
      fun depth => Template.eval (depth + 1) lib st (.index e i) := by
  simp only [Expr.allowed, Bool.and_eq_true, Bool.or_eq_true] at hindex
  obtain ⟨⟨hp, he⟩, hi⟩ := hindex
  simp only [Template.eval]
  refine hc.bind (h.eval hst he) fun v hv => ?_
  rcases hp with hp | hp
  · exact hc.bind (h.eval hst hi) fun i _ => hc.looking fun l =>
      Value.gives_getElement l (.inl hp) hv
  · obtain ⟨lit, rfl, hlit⟩ := Expr.exists_literal hp
    refine hc.bind (h.literal lit) fun i hi => hc.looking fun l =>
      Value.gives_getElement l (.inr fun t ht => ?_) hv
    rw [hi, lit.lookThrough_value] at ht
    exact hlit t ht

theorem eval_succ {e : Expr} (hst : st.Allowed p) (he : e.allowed p = true) :
    Good Value (Value.allowed p · = true) (depth + 1)
      fun depth => Template.eval depth lib st e := by
  refine hc.of_succ ?_
  have heval {e : Expr} (he : e.allowed p = true) := h.eval hst he
  have hexprs {es : List Expr} (hes : allowedExprs p es = true) := exprs hc h hst hes
  cases e with
  | literal l =>
    simp only [Template.eval]
    exact hc.pure (by cases l <;> rfl)
  | name s =>
    simp only [Template.eval]
    exact hc.pure (hst.get s)
  | captured =>
    simp only [Template.eval]
    exact hc.pure rfl
  | list items | tuple items =>
    simp only [Template.eval]
    exact hc.bind (hexprs he) fun _ hvs => hc.pure (allowedItems_iff.2 hvs)
  | mapping entries =>
    simp only [Template.eval]
    have he := allowedPairs_iff.1 he
    refine hc.bind (hc.mapM (P := fun e : Value × Value => e.1.allowed p = true ∧
      e.2.allowed p = true) fun e hmem => hc.bind (heval (he e hmem).1) fun k hk =>
        hc.bind (heval (he e hmem).2) fun v hv => hc.pure ⟨hk, hv⟩) fun pairs hpairs => ?_
    refine hc.foldlM rfl fun m e hm he =>
      hc.bind (hc.lift (Value.gives_use (hpairs e he).1)) fun k hk => ?_
    cases m with
    | mapping m =>
      exact either (hc.pure (Value.allowedEntries_putEntry hm hk (hpairs e he).2)) hc.throw
    | _ => exact hc.pure hm
  | negative e =>
    simp only [Template.eval]
    exact hc.bind (heval he) fun v _ => hc.lift (Value.gives_negate v)
  | positive e =>
    simp only [Template.eval]
    exact hc.bind (heval he) fun v _ => hc.lift (Value.gives_affirm v)
  | not e =>
    simp only [Template.eval]
    exact hc.bind (heval he) fun v _ => hc.bind (hc.truth v) fun _ _ => hc.pure rfl
  | arithmetic op a b =>
    obtain ⟨ha, hb⟩ := Bool.and_eq_true_iff.1 he
    simp only [Template.eval]
    exact hc.bind (heval ha) fun _ hv => hc.bind (heval hb) fun _ hw => hc.looking fun l =>
      Value.gives_arithmetic op (Value.allowed_look l hv) (Value.allowed_look l hw)
  | join parts =>
    simp only [Template.eval]
    exact hc.bind (hexprs he) fun _ _ => hc.bind (hc.mapM fun v _ => hc.text v) fun _ _ =>
      hc.pure rfl
  | compare e rest =>
    obtain ⟨he, hrest⟩ := Bool.and_eq_true_iff.1 he
    simp only [Template.eval]
    exact hc.bind (heval he) fun v _ => h.evalChain v hst hrest
  | and a b =>
    obtain ⟨ha, hb⟩ := Bool.and_eq_true_iff.1 he
    simp only [Template.eval]
    exact hc.bind (heval ha) fun v hv => hc.bind (hc.truth v) fun _ _ =>
      either (heval hb) (hc.pure hv)
  | or a b =>
    obtain ⟨ha, hb⟩ := Bool.and_eq_true_iff.1 he
    simp only [Template.eval]
    exact hc.bind (heval ha) fun v hv => hc.bind (hc.truth v) fun _ _ =>
      either (hc.pure hv) (heval hb)
  | choice test yes no place =>
    simp only [Expr.allowed, Bool.and_eq_true] at he
    simp only [Template.eval]
    refine hc.bind (heval he.1.1) fun v _ => hc.bind (hc.truth v) fun _ _ =>
      either (heval he.1.2) ?_
    cases no with
    | some e => exact heval he.2
    | none => exact hc.pure rfl
  | member e name =>
    obtain ⟨hname, he⟩ := Bool.and_eq_true_iff.1 he
    simp only [Template.eval]
    exact hc.bind (heval he) fun _ hv =>
      hc.lift (Value.gives_getMember (Bool.or_eq_true_iff.1 hname) hv)
  | index e i => exact index hc h hst he
  | slice e start stop step =>
    simp only [Expr.allowed, Bool.and_eq_true] at he
    simp only [Template.eval]
    exact hc.bind (heval he.1.1.1) fun _ hv => hc.bind (option hc h hst he.1.1.2) fun _ _ =>
      hc.bind (option hc h hst he.1.2) fun _ _ => hc.bind (option hc h hst he.2) fun _ _ =>
        hc.looking fun l => Value.gives_slice (Value.allowed_look l hv)
  | call f args named =>
    simp only [Expr.allowed, Bool.and_eq_true] at he
    simp only [Template.eval]
    exact hc.bind (heval he.1.1) fun _ hf =>
      hc.bind (h.evalGiven hst he.1.2 he.2) fun _ hg => h.call hst hf hg
  | filter e name args named =>
    simp only [Expr.allowed, Bool.and_eq_true, Bool.or_eq_true, bne_iff_ne] at he
    simp only [Template.eval]
    exact hc.bind (heval he.1.1.2) fun _ hv =>
      hc.bind (h.evalGiven hst he.1.2 he.2) fun _ hg => hc.filter he.1.1.1 hv hg
  | test e name args named =>
    simp only [Expr.allowed, Bool.and_eq_true] at he
    simp only [Template.eval]
    exact hc.bind (heval he.1.1) fun _ _ => hc.bind (h.evalGiven hst he.1.2 he.2) fun _ _ =>
      hc.bind hc.loans fun _ _ => hc.bind (hc.lift .any) fun _ _ => hc.pure rfl

theorem evalChain_succ {rest : List (Comparison × Expr)} (v : Value) (hst : st.Allowed p)
    (hrest : allowedCompared p rest = true) : Good Value (Value.allowed p · = true) (depth + 1)
      fun depth => Template.evalChain depth lib st v rest := by
  refine hc.of_succ ?_
  cases rest with
  | nil =>
    simp only [Template.evalChain]
    exact hc.pure rfl
  | cons c rest =>
    obtain ⟨he, hrest⟩ := Bool.and_eq_true_iff.1 hrest
    simp only [Template.evalChain]
    exact hc.bind (h.eval hst he) fun w _ => hc.bind hc.loans fun _ _ =>
      hc.bind (hc.lift .any) fun _ _ => either (h.evalChain w hst hrest) (hc.pure rfl)

theorem evalGiven_succ {args : List Expr} {named : List (String × Expr)} (hst : st.Allowed p)
    (hargs : allowedExprs p args = true) (hnamed : allowedArgs p named = true) :
    Good Given (Given.Allowed p) (depth + 1)
      fun depth => Template.evalGiven depth lib st args named := by
  refine hc.of_succ ?_
  simp only [Template.evalGiven]
  refine hc.bind (exprs hc h hst hargs) fun _ hvs => ?_
  refine hc.bind (hc.mapM (P := fun e : String × Value => e.2.allowed p = true) fun e he =>
    hc.bind (h.eval hst (allowedArgs_iff.1 hnamed e he)) fun _ hv => hc.pure hv) fun _ hws => ?_
  exact hc.pure ⟨allowedItems_iff.2 hvs, allowedNames_iff.2 hws⟩

theorem call_succ {f : Value} {g : Given} (hst : st.Allowed p) (hf : f.allowed p = true)
    (hg : g.Allowed p) : Good Value (Value.allowed p · = true) (depth + 1)
      fun depth => Template.call depth lib st f g := by
  refine hc.of_succ ?_
  simp only [Template.call]
  refine hc.bind (hc.lift (Value.gives_useFully hf)) fun f hf => ?_
  cases f with
  | method receiver name => exact hc.callMethod hf hg
  | builtin name => exact hc.lift (Value.gives_callBuiltin name hg)
  | block name level => exact hc.bind (h.blockText name level false hst) fun _ _ => hc.pure rfl
  | routine name params body scopes =>
    have hf' := hf
    simp only [Value.allowed, Bool.and_eq_true] at hf'
    obtain ⟨⟨hparams, hbody⟩, hscopes⟩ := hf'
    refine hc.bind (hc.lift (hg.gives_take _ _)) fun given hgiven => ?_
    refine hc.bind (h.bindParams ?_ (fun q hq => ?_) fun q hq v hv => ?_) fun _ hinner =>
      hc.bind (h.execAll hinner hbody) fun _ _ => hc.pure rfl
    · refine { hst with scopes := ?_ }
      simp only [allowedScopes, allowedNames, hf, hscopes, Bool.and_self]
    · exact List.all_eq_true.1 hparams q.1 (List.of_mem_zip hq).1
    · exact hgiven q.2 (List.of_mem_zip hq).2 v hv
  | _ => exact hc.throw

theorem bindParams_succ {params : List ((String × Option Expr) × Option Value)}
    (hst : st.Allowed p) (hdefaults : ∀ q ∈ params, allowedOption p q.1.2 = true)
    (hparams : ∀ q ∈ params, ∀ v ∈ q.2, v.allowed p = true) :
    Good State (State.Allowed p) (depth + 1)
      fun depth => Template.bindParams depth lib st params := by
  refine hc.of_succ ?_
  cases params with
  | nil =>
    simp only [Template.bindParams]
    exact hc.pure hst
  | cons q params =>
    obtain ⟨⟨name, default_⟩, given⟩ := q
    rw [List.forall_mem_cons] at hdefaults hparams
    simp only [Template.bindParams]
    have hrest (v : Value) (hv : v.allowed p = true) :=
      h.bindParams (hst.set name hv) hdefaults.2 hparams.2
    cases given with
    | some v => exact hc.bind (hc.pure (hparams.1 v rfl)) hrest
    | none =>
      cases default_ with
      | some e => exact hc.bind (h.eval hst hdefaults.1) hrest
      | none => exact hc.bind (P := (Value.allowed p · = true)) (hc.pure rfl) hrest

theorem blockText_succ (name : String) (level : Nat) (isOpen : Bool) (hst : st.Allowed p) :
    Good Text (fun _ => True) (depth + 1)
      fun depth => Template.blockText depth lib st name level isOpen := by
  refine hc.of_succ ?_
  simp only [Template.blockText]
  refine hc.bind (h.execAll { hst with scopes := ?_ } (hst.bodies name level)) fun _ _ =>
    hc.pure trivial
  cases isOpen with
  | false => rfl
  | true => exact hst.scopes

theorem execAll_succ {body : List Stmt} (hst : st.Allowed p)
    (hbody : allowedIn p body = true) : Good State (State.Allowed p) (depth + 1)
      fun depth => Template.execAll depth lib st body := by
  refine hc.of_succ ?_
  simp only [Template.execAll]
  exact hc.foldlM hst fun _ s hst hs => h.exec hst (allowedIn_iff.1 hbody s hs)

theorem execCases_succ {cases : List (Expr × List Stmt)} {orElse : List Stmt}
    (hst : st.Allowed p) (hcases : allowedInCases p cases = true)
    (horElse : allowedIn p orElse = true) : Good State (State.Allowed p) (depth + 1)
      fun depth => Template.execCases depth lib st cases orElse := by
  refine hc.of_succ ?_
  cases cases with
  | nil =>
    simp only [Template.execCases]
    exact h.execAll hst horElse
  | cons c cases =>
    simp only [allowedInCases, Bool.and_eq_true] at hcases
    obtain ⟨⟨htest, hbody⟩, hcases⟩ := hcases
    simp only [Template.execCases]
    exact hc.bind (h.eval hst htest) fun v _ => hc.bind (hc.truth v) fun _ _ =>
      either (h.execAll hst hbody) (h.execCases hst hcases horElse)

theorem renderRoot_succ {t : Template} (ht : allowedIn p t.body = true)
    (hst : st.Allowed p) : Good State (State.Allowed p) (depth + 1)
      fun depth => Template.renderRoot depth lib t st := by
  refine hc.of_succ ?_
  simp only [Template.renderRoot]
  refine hc.bind (h.execAll hst ht) fun after hafter => ?_
  cases hparent : after.parent with
  | none => exact hc.pure hafter
  | some parent => exact h.renderRoot (hafter.parent parent hparent) { hafter with parent := nofun }

/-- A loop: the items that pass its test, and what is done with each of them. -/
theorem forEach {binder : Binder} {source : Expr} {test : Option Expr} {body orElse : List Stmt}
    {line : Nat} (hst : st.Allowed p)
    (hs : (Stmt.forEach binder source test body orElse line).allowed p = true) :
    Good State (State.Allowed p) depth fun depth =>
      Template.exec (depth + 1) lib st (.forEach binder source test body orElse line) := by
  simp only [Stmt.allowed, Bool.and_eq_true] at hs
  obtain ⟨⟨⟨hsource, htest⟩, hbody⟩, horElse⟩ := hs
  have hinner : ({ st with scopes := [] :: st.scopes } : State).Allowed p := hst.push rfl
  -- what is done with the items is the same whether they were chosen by a test or not
  have hrun (v : Value) (items : List Value) (hitems : ∀ v ∈ items, v.allowed p = true) :
      Good State (State.Allowed p) depth fun depth =>
        if items.isEmpty then st.within_ [] (fun st => Template.execAll depth lib st orElse)
        else Run.occupying v <| (positioned 0 items).foldlM (fun st item => st.within_
          (if mentions "loop" body then [("loop", .loop item.1 items)] else [])
          fun st => do Template.execAll depth lib (← Run.assign binder item.2 st) body) st := by
    refine either (hc.within_ hst rfl fun _ h' => h.execAll h' horElse) (hc.occupying v
      (hc.foldlM hst fun st item hst hitem => hc.within_ hst ?_ fun inner hinner =>
        hc.bind (hc.assign binder ?_ hinner) fun _ h' => h.execAll h' hbody))
    · split
      · simpa [allowedNames] using hitems
      · rfl
    · exact hitems item.2 (mem_of_mem_positioned hitem)
  simp only [Template.exec]
  refine hc.bind (h.eval hst hsource) fun v hv => hc.bind (hc.items hv) fun items hitems => ?_
  cases test with
  | none => exact hc.bind (hc.pure hitems) (hrun v)
  | some test =>
    refine hc.bind (hc.occupying v (hc.filterM hitems fun w hw => ?_)) (hrun v)
    exact hc.bind (hc.assign binder (hitems w hw) hinner) fun _ h' =>
      hc.bind (h.eval h' htest) fun w _ => hc.truth w

theorem exec_succ (hlib : lib.allowed p = true) {s : Stmt} (hst : st.Allowed p)
    (hs : s.allowed p = true) : Good State (State.Allowed p) (depth + 1)
      fun depth => Template.exec depth lib st s := by
  refine hc.of_succ ?_
  cases s with
  | forEach => exact forEach hc h hst hs
  | text cs =>
    simp only [Template.exec]
    refine hc.pure ?_
    split
    · exact hst
    · exact hst.print _
  | print e =>
    simp only [Template.exec]
    exact either (hc.pure hst) (hc.bind (h.eval hst hs) fun v _ => hc.bind (hc.text v) fun _ _ =>
      hc.pure (hst.print _))
  | branch cases orElse =>
    obtain ⟨hcases, horElse⟩ := Bool.and_eq_true_iff.1 hs
    simp only [Template.exec]
    exact h.execCases hst hcases horElse
  | assign binder e =>
    simp only [Template.exec]
    exact hc.bind (h.eval hst hs) fun _ hv => hc.assign binder hv hst
  | assignText binder filtered body =>
    obtain ⟨hfiltered, hbody⟩ := Bool.and_eq_true_iff.1 hs
    simp only [Template.exec]
    exact hc.bind (h.execAll { hst.push rfl with } hbody) fun _ _ =>
      hc.bind (h.eval { hst with } hfiltered) fun _ hv => hc.assign binder hv hst
  | printText filtered body =>
    obtain ⟨hfiltered, hbody⟩ := Bool.and_eq_true_iff.1 hs
    simp only [Template.exec]
    exact hc.bind (h.execAll { hst.push rfl with } hbody) fun _ _ =>
      hc.bind (h.eval { hst with } hfiltered) fun v _ => hc.bind (hc.text v) fun _ _ =>
        hc.pure (hst.print _)
  | scope bindings body =>
    obtain ⟨hbindings, hbody⟩ := Bool.and_eq_true_iff.1 hs
    simp only [Template.exec]
    refine hc.bind (hc.mapM (P := fun e : Binder × Value => e.2.allowed p = true) fun e he =>
      hc.bind (h.eval hst (List.all_eq_true.1 hbindings e he)) fun _ hv => hc.pure hv)
        fun values hvalues => ?_
    exact hc.within_ hst rfl fun inner hinner => hc.bind (hc.foldlM hinner fun _ e h' he =>
      hc.assign e.1 (hvalues e he) h') fun _ h' => h.execAll h' hbody
  | block name isOpen =>
    simp only [Template.exec]
    exact either (hc.pure hst) (hc.bind (h.blockText name 0 isOpen hst) fun _ _ =>
      hc.pure (hst.print _))
  | inherit_ parent =>
    simp only [Template.exec]
    exact hc.bind (h.eval hst hs) fun _ _ => hc.bind (hc.lift .any) fun name _ =>
      either hc.throw (hc.bind (hc.fetch name) fun t ht =>
        hc.pure (hst.inherit (lib.allowedIn_of_load hlib ht)))
  | insert template mayBeMissing withNames =>
    obtain ⟨hnames, htemplate⟩ := Bool.and_eq_true_iff.1 hs
    simp only [Template.exec]
    refine hc.bind (h.eval hst htemplate) fun v _ =>
      hc.bind (hc.chooseTemplate mayBeMissing v) fun chosen hchosen => ?_
    cases chosen with
    | none => exact hc.pure hst
    | some chosen =>
      obtain ⟨name, t⟩ := chosen
      have hload : lib.load name = .ok t := hchosen _ rfl
      have ht := Library.allowedIn_of_load hlib hload
      cases withNames with
      | true =>
        exact hc.bind (h.renderRoot ht (State.allowed_initial hst.visible ht)) fun _ _ =>
          hc.pure (hst.print _)
      | false =>
        -- only here a kept text is looked for, so the statement says that this is permitted
        exact hc.bind (hc.keeping hnames hload (hc.apart (hc.bind
          (h.renderRoot ht (State.allowed_initial rfl ht)) fun _ _ => hc.pure trivial)))
            fun _ _ => hc.pure (hst.print _)
  | routine name params body =>
    simp only [Template.exec]
    exact hc.pure (hst.set name (Bool.and_eq_true_iff.2 ⟨hs, hst.scopes⟩))

theorem succ (hlib : lib.allowed p = true) : Traversed lib p Good (depth + 1) where
  literal := literal_succ hc
  eval := eval_succ hc h
  evalChain := evalChain_succ hc h
  evalGiven := evalGiven_succ hc h
  call := call_succ hc h
  bindParams := bindParams_succ hc h
  blockText := blockText_succ hc h
  execAll := execAll_succ hc h
  exec := exec_succ hc h hlib
  execCases := execCases_succ hc h
  renderRoot := renderRoot_succ hc h

end Traversed

namespace Compositional

variable {lib : Library} {Good : Property}

theorem traversed (hc : Compositional lib p Good) (hlib : lib.allowed p = true)
    (depth : Nat) : Traversed lib p Good depth := by
  induction depth with
  | zero => exact .zero hc
  | succ depth ih => exact ih.succ hc hlib

/-- Rendering has every compositional property. -/
theorem renderTo (hc : Compositional lib p Good) (hlib : lib.allowed p = true)
    {context : Scope} (hcontext : allowedNames p context = true) (depth : Nat) (name : String) :
    Good Text (fun _ => True) depth fun depth => lib.renderTo depth name context :=
  hc.bind (hc.fetch name) fun _ ht =>
    have ht := Library.allowedIn_of_load hlib ht
    either hc.throw (hc.bind ((hc.traversed hlib depth).renderRoot ht
      (State.allowed_initial hcontext ht)) fun _ _ => hc.pure trivial)

end Compositional

end Scaffold.Template
