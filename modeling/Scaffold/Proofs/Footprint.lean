/-
  What rendering uses of a desk, and what it leaves.

  * `Drawing`: a computation uses up some draws, and comes to the same whatever the draws after
    those will give. Templates that may not draw use up none.
  * `Sparing`: where lists may not be changed, all of them are left as they were.

  Both are compositional.
-/
import Mathlib
import Scaffold.Proofs.Compositional

namespace Scaffold.Template

variable {α β : Type} {p : Permit} {lib : Library} {depth : Nat}

/-! ## Draws -/

namespace Luck

variable {luck luck' : Luck} {m n : Nat}

/-- The next draws give the same. -/
def Agree (n : Nat) (luck luck' : Luck) : Prop := ∀ i < n, luck i = luck' i

theorem after_zero (luck : Luck) : luck.after 0 = luck := by
  funext i
  rw [after, Nat.zero_add]

theorem after_after (luck : Luck) (m n : Nat) : (luck.after m).after n = luck.after (m + n) := by
  funext i
  rw [after, after, after, Nat.add_assoc]

namespace Agree

theorem refl (n : Nat) (luck : Luck) : Agree n luck luck := fun _ _ => rfl

theorem left (h : Agree (m + n) luck luck') : Agree m luck luck' := fun i hi => h i (by omega)

theorem right (h : Agree (m + n) luck luck') : Agree n (luck.after m) (luck'.after m) :=
  fun i hi => h (m + i) (by omega)

end Agree

end Luck

/-- A computation uses up some draws, none if none may be made, and comes to the same whatever the
    draws after those will give. -/
def Drawing (p : Permit) (α : Type) (P : α → Prop) (depth : Nat) (x : Nat → Run α) : Prop :=
  ∀ d : Desk, ∃ (n : Nat) (r : Result α) (d' : Desk), Gives P r ∧ (p.draws = false → n = 0) ∧
    ∀ luck, Luck.Agree n luck d.luck →
      (x depth).perform { d with luck := luck } = (r, { d' with luck := luck.after n })

namespace Drawing

variable {P : α → Prop} {Q : β → Prop} {x : Nat → Run α} {f : Nat → α → Run β}

/-- What does not depend on the draws uses up none. -/
theorem of_still (r : Desk → Result α) (d' : Desk → Desk) (hr : ∀ d, Gives P (r d))
    (h : ∀ d luck, (x depth).perform { d with luck := luck } = (r d, { d' d with luck := luck })) :
    Drawing p α P depth x := by
  intro d
  refine ⟨0, r d, d' d, hr d, fun _ => rfl, fun luck _ => ?_⟩
  rw [h, luck.after_zero]

theorem bind (hx : Drawing p α P depth x) (hf : ∀ a, P a → Drawing p β Q depth (f · a)) :
    Drawing p β Q depth fun depth => x depth >>= f depth := by
  intro d
  obtain ⟨n, r, d', hr, hn, hx⟩ := hx d
  cases r with
  | error e =>
    refine ⟨n, .error e, d', .error, hn, fun luck h => ?_⟩
    rw [Run.perform_bind, hx luck h]
  | ok a =>
    obtain ⟨m, r, d'', hr', hm, hf⟩ := hf a (hr a rfl) { d' with luck := d.luck.after n }
    refine ⟨n + m, r, d'', hr', fun hp => by rw [hn hp, hm hp], fun luck h => ?_⟩
    rw [Run.perform_bind, hx luck h.left, ← luck.after_after]
    exact hf (luck.after n) h.right

theorem apart (h : Drawing p α P depth x) :
    Drawing p α P depth fun depth => Run.apart (x depth) := by
  intro d
  obtain ⟨n, r, d', hr, hn, h⟩ := h { d with loans := .untouched }
  refine ⟨n, r, { d' with loans := d.loans }, hr, hn, fun luck hluck => ?_⟩
  rw [Run.perform_apart, h luck hluck]

theorem keeping {name : String} {make : Nat → Run Text}
    (h : Drawing p Text (fun _ => True) depth make) :
    Drawing p Text (fun _ => True) depth fun depth => keeping lib name (make depth) := by
  intro d
  cases hkept : d.shelf.bind (Shelf.text? name ((lib.source? name).getD [])) with
  | some text =>
    refine ⟨0, .ok text, d, .any, fun _ => rfl, fun luck _ => ?_⟩
    simp only [perform_keeping, hkept, luck.after_zero]
  | none =>
    obtain ⟨n, r, d', -, hn, h⟩ := h d
    cases r with
    | error e =>
      refine ⟨n, .error e, d', .error, hn, fun luck hluck => ?_⟩
      simp only [perform_keeping, hkept, h luck hluck]
    | ok text =>
      let note := Shelf.note name ((lib.source? name).getD []) text
      refine ⟨n, .ok text, { d' with shelf := d'.shelf.map note }, .any, hn, fun luck hluck => ?_⟩
      simp only [perform_keeping, hkept, h luck hluck, note]

end Drawing

theorem compositional_drawing (lib : Library) (p : Permit) : Compositional lib p (Drawing p) where
  of_zero h := .of_still (fun _ => .error .endless) id (fun _ => .error) fun _ _ => by rw [h]; rfl
  of_succ h := h
  lift h := .of_still (fun _ => _) id (fun _ => h) fun _ _ => rfl
  bind hx hf := hx.bind hf
  loans := .of_still (fun d => .ok d.loans) id (fun _ => .any) fun _ _ => rfl
  setBusy spots := .of_still (fun _ => .ok ())
    (fun d => { d with loans := { d.loans with busy := spots } }) (fun _ => .any) fun _ _ => rfl
  put spot ps _ := .of_still (fun _ => .ok ()) (fun d => { d with loans := d.loans.put spot ps })
    (fun _ => .any) fun _ _ => rfl
  draw n hp d := by
    refine ⟨1, .ok (d.luck 0 % n), d, .any, fun h => by simp [hp] at h, fun luck h => ?_⟩
    rw [Run.perform_draw, ← h 0 Nat.one_pos]
  apart h := h.apart
  touch name := .of_still (fun _ => .ok ())
    (fun d => { d with shelf := d.shelf.map (Shelf.touch name) }) (fun _ => .any) fun _ _ => rfl
  fetch name := by
    cases hload : lib.load name with
    | ok t =>
      let renew := Shelf.renew name ((lib.source? name).getD [])
      exact .of_still (fun _ => .ok t) (fun d => { d with shelf := d.shelf.map renew })
        (fun _ => .ok rfl) fun d luck => perform_fetch_ok hload { d with luck := luck }
    | error e =>
      exact .of_still (fun _ => .error e)
        (fun d => { d with shelf := d.shelf.map (Shelf.touch name) }) (fun _ => .error)
        fun d luck => perform_fetch_error hload { d with luck := luck }
  keeping _ _ h := h.keeping

/-! ## Lists -/

/-- All lists are left as they were. -/
def Sparing (α : Type) (P : α → Prop) (depth : Nat) (x : Nat → Run α) : Prop :=
  ∀ d : Desk, Gives P ((x depth).perform d).1 ∧ ((x depth).perform d).2.loans.left = d.loans.left

theorem Sparing.bind {P : α → Prop} {Q : β → Prop} {x : Nat → Run α} {f : Nat → α → Run β}
    (hx : Sparing α P depth x) (hf : ∀ a, P a → Sparing β Q depth (f · a)) :
    Sparing β Q depth fun depth => x depth >>= f depth := by
  intro d
  obtain ⟨hgives, hleft⟩ := hx d
  rcases hperform : (x depth).perform d with ⟨e | a, d'⟩
  · simp only [Run.perform_bind, hperform] at hleft ⊢
    exact ⟨.error, hleft⟩
  · simp only [Run.perform_bind, hperform] at hleft ⊢
    obtain ⟨hgives', hleft'⟩ := hf a (hgives a (by rw [hperform])) d'
    exact ⟨hgives', hleft'.trans hleft⟩

theorem compositional_sparing (lib : Library) (hp : p.takes = false) :
    Compositional lib p Sparing where
  of_zero h _ := by rw [h]; exact ⟨.error, rfl⟩
  of_succ h := h
  lift h _ := ⟨h, rfl⟩
  bind hx hf := hx.bind hf
  loans _ := ⟨.any, rfl⟩
  setBusy _ _ := ⟨.any, rfl⟩
  put _ _ h := by simp [hp] at h
  draw _ _ _ := ⟨.any, rfl⟩
  apart h d := ⟨(h { d with loans := .untouched }).1, rfl⟩
  touch _ _ := ⟨.any, rfl⟩
  fetch name d := by
    cases hload : lib.load name with
    | ok t => rw [perform_fetch_ok hload]; exact ⟨.ok rfl, rfl⟩
    | error e => rw [perform_fetch_error hload]; exact ⟨.error, rfl⟩
  keeping _ _ h d := by
    refine ⟨.any, ?_⟩
    obtain ⟨-, hleft⟩ := h d
    rw [perform_keeping]
    split
    · rfl
    · split
      · next hmake => rw [hmake] at hleft; exact hleft
      · next hmake => rw [hmake] at hleft; exact hleft

/-- **A template that may not change lists leaves them as they were.** -/
theorem left_renderTo {context : Scope} (hlib : lib.allowed .sparing = true)
    (hcontext : allowedNames .sparing context = true) (depth : Nat) (name : String) (d : Desk) :
    ((lib.renderTo depth name context).perform d).2.loans.left = d.loans.left :=
  ((compositional_sparing lib rfl).renderTo hlib hcontext depth name d).2

end Scaffold.Template
