/-
  What reading a source, keeping a specification and loading one do.

  Results are given by functions of the store: `Contract.specOf` for what a source holds, and
  `Cache.keptIn` for what is kept. Beyond events, only keeping and removing change the store:
  `Saved` and `perform_invalidate` say how. `load_cases` puts them together.
-/
import Scaffold.Contract.Loading
import Scaffold.Proofs.Effect
import Scaffold.Proofs.Specification
import Scaffold.Proofs.Store

namespace Scaffold

/-! ## Reading a source -/

namespace Contract

variable {p : Path} {k : Conventions}

/-- The bytes of a source in a store. -/
def sourceOf (s : Store) (p : Path) : Except Failure (List UInt8) :=
  match s.read p with
  | .error f => .error (if f.isFile then unreadable p f else f)
  | .ok bytes =>
    match Utf8.decode bytes with
    | .error fault => .error (unreadable p (.undecodable fault))
    | .ok _ => .ok bytes

/-- The specification of a source in a store. -/
def specOf (s : Store) (p : Path) (k : Conventions) : Except Failure Specification :=
  match sourceOf s p with
  | .error f => .error f
  | .ok bytes => (readSource p.text k bytes).result

theorem specOf_of_read {s : Store} {bytes : List UInt8} {cs : List Char}
    (hread : s.read p = .ok bytes) (hdecode : Utf8.decode bytes = .ok cs) :
    specOf s p k = (readSource p.text k bytes).result := by
  simp only [specOf, sourceOf, hread, hdecode]

theorem stat_of_specOf {s : Store} {spec : Specification} (h : specOf s p k = .ok spec) :
    ∃ bytes t, s.stat p = .ok (.file bytes t) := by
  simp only [specOf, sourceOf, Store.read] at h
  cases hs : s.stat p with
  | error f => rw [hs] at h; cases h
  | ok e =>
    cases e with
    | file bytes t => exact ⟨bytes, t, rfl⟩
    | dir es t => rw [hs] at h; cases h

theorem perform_sourceBytes (w : World) :
    (sourceBytes p).perform w = (sourceOf w.store p, w) := by
  simp only [sourceBytes, sourceOf, Effect.perform_bind, Effect.perform_outcome, Effect.read,
    Effect.perform_query]
  cases w.store.read p with
  | error f =>
    simp only []
    split <;> rfl
  | ok bytes =>
    simp only []
    cases Utf8.decode bytes <;> rfl

theorem perform_reportReading (p : Path) (o : Outcome) (w : World) :
    ∃ events, (reportReading p o).perform w = (.ok (), { w with reported := events }) := by
  have hloop (names : List String) (w : World) : ∃ events,
      (forIn names PUnit.unit fun name _ => do
        Effect.report .debug "Skipping type without fields." [("type", .str name)]
        pure (ForInStep.yield PUnit.unit) : Effect PUnit).perform w =
          (.ok (), { w with reported := events }) := by
    induction names generalizing w with
    | nil => exact ⟨_, rfl⟩
    | cons name names ih =>
      obtain ⟨events, h⟩ := ih { w with reported := _ }
      simp only [List.forIn_cons, Effect.perform_bind, Effect.perform_report, Effect.perform_pure]
      exact ⟨events, h⟩
  obtain ⟨events, h⟩ := hloop o.emptyTypes w
  simp only [reportReading, Effect.perform_bind, h]
  cases o.result <;> exact ⟨_, rfl⟩

theorem perform_readPath (p : Path) (k : Conventions) (w : World) :
    ∃ events, (readPath p k).perform w = (specOf w.store p k, { w with reported := events }) := by
  simp only [readPath, specOf, Effect.perform_bind, perform_sourceBytes]
  cases sourceOf w.store p with
  | error f => exact ⟨w.reported, rfl⟩
  | ok bytes =>
    obtain ⟨events, h⟩ := perform_reportReading p (readSource p.text k bytes) w
    simp only [h, Effect.perform_ofResult]
    exact ⟨events, rfl⟩

end Contract

/-! ## Kept specifications -/

namespace Cache

variable {c : Cache} {k : Contract.Conventions}

/-- Whether the kept specification is newer than its source, in a store. -/
def freshIn (c : Cache) (s : Store) : Except Failure Bool :=
  match s.stat c.path with
  | .error f => if f.isFile then .ok false else .error f
  | .ok kept =>
    match s.stat c.source with
    | .error f => if f.isFile then .ok false else .error f
    | .ok source => .ok (decide (kept.time > source.time))

/-- The kept specification in a store. -/
def keptIn (c : Cache) (s : Store) : Except Failure (Option Specification) :=
  match c.freshIn s with
  | .error f => .error f
  | .ok true => .ok (ofFile (s.read c.path))
  | .ok false => .ok none

theorem perform_isFresh (w : World) : c.isFresh.perform w = (c.freshIn w.store, w) := by
  simp only [isFresh, freshIn, Effect.perform_bind, Effect.perform_outcome, Effect.perform_query]
  cases w.store.stat c.path with
  | error f =>
    simp only []
    split <;> rfl
  | ok kept =>
    simp only [Effect.perform_bind, Effect.perform_outcome, Effect.perform_query]
    cases w.store.stat c.source with
    | error f =>
      simp only []
      split <;> rfl
    | ok source => rfl

theorem perform_load? (w : World) :
    ∃ events, c.load?.perform w = (c.keptIn w.store, { w with reported := events }) := by
  simp only [load?, keptIn, Effect.perform_bind, perform_isFresh]
  cases c.freshIn w.store with
  | error f => exact ⟨w.reported, rfl⟩
  | ok fresh =>
    cases fresh with
    | false => exact ⟨_, rfl⟩
    | true =>
      simp only [if_true, Effect.perform_bind, Effect.perform_outcome, Effect.read,
        Effect.perform_query]
      cases ofFile (w.store.read c.path) with
      | none => exact ⟨_, rfl⟩
      | some spec => exact ⟨w.reported, rfl⟩

theorem keptIn_of_fresh {s : Store} {spec : Specification} {bytes : List UInt8}
    (hfresh : c.freshIn s = .ok true) (hread : s.read c.path = .ok bytes)
    (hspec : Specification.ofBytes bytes = .ok spec) : c.keptIn s = .ok (some spec) := by
  simp only [keptIn, hfresh, hread, ofFile, hspec]

theorem keptIn_of_hasNul (s : Store) (h : Store.hasNul c.path = true) :
    c.keptIn s = .error .nulInPath := by
  simp [keptIn, freshIn, Store.stat_of_hasNul h, Failure.isFile]

theorem ofFile_read {s : Store} {p : Path} {spec : Specification}
    (h : ofFile (s.read p) = some spec) :
    ∃ bytes t, s.stat p = .ok (.file bytes t) ∧ Specification.ofBytes bytes = .ok spec := by
  unfold Store.read at h
  cases hs : s.stat p with
  | error f => rw [hs] at h; cases h
  | ok e =>
    rw [hs] at h
    cases e with
    | dir es t => cases h
    | file bytes t =>
      simp only [ofFile] at h
      cases hb : Specification.ofBytes bytes with
      | error issues => rw [hb] at h; cases h
      | ok spec' => rw [hb] at h; cases h; exact ⟨bytes, t, rfl, hb⟩

theorem keptIn_some {s : Store} {spec : Specification} (h : c.keptIn s = .ok (some spec)) :
    ∃ bytes t source, s.stat c.path = .ok (.file bytes t) ∧ s.stat c.source = .ok source ∧
      source.time < t ∧ Specification.ofBytes bytes = .ok spec := by
  unfold keptIn at h
  split at h
  · cases h
  · next hfresh =>
    injection h with h
    obtain ⟨bytes, t, hp, hb⟩ := ofFile_read h
    simp only [freshIn, hp] at hfresh
    cases hs : s.stat c.source with
    | error f => rw [hs] at hfresh; by_cases hf : f.isFile = true <;> simp [hf] at hfresh
    | ok source =>
      rw [hs] at hfresh
      exact ⟨bytes, t, source, hp, rfl, by simpa [Entry.time] using hfresh, hb⟩
  · cases h

theorem keptIn_error {s : Store} {f : Failure} (h : c.keptIn s = .error f) :
    f = .nulInPath ∧ (Store.hasNul c.path = true ∨ Store.hasNul c.source = true) := by
  unfold keptIn at h
  split at h
  · next hfresh =>
    cases h
    unfold freshIn at hfresh
    split at hfresh
    · next g hp =>
      split at hfresh
      · cases hfresh
      · next hf =>
        cases hfresh
        obtain ⟨hn, rfl⟩ := Store.stat_error hp (by simpa using hf)
        exact ⟨rfl, Or.inl hn⟩
    · split at hfresh
      · next g hs =>
        split at hfresh
        · cases hfresh
        · next hf =>
          cases hfresh
          obtain ⟨hn, rfl⟩ := Store.stat_error hs (by simpa using hf)
          exact ⟨rfl, Or.inr hn⟩
      · cases hfresh
  · cases h
  · cases h

theorem perform_warning (message : String) (t : Effect Unit) (w : World) :
    (c.warning message t).perform w =
      match t.perform w with
      | (.ok _, w) => (.ok (), w)
      | (.error f, w) =>
        if f.isFile then
          (.ok (), { w with reported := ⟨.warning, message, c.fields⟩ :: w.reported })
        else (.error f, w) := by
  simp only [warning, Effect.perform_bind, Effect.perform_outcome]
  rcases t.perform w with ⟨f | u, w'⟩
  · simp only []
    split <;> rfl
  · rfl

/-- What keeping a specification does to a store: it is written after directories were made, or
    there is no file for it, or nothing changes. -/
inductive Saved (c : Cache) (spec : Specification) (s : Store) : Store → Prop
  | same : Saved c spec s s
  | nowhere {s' : Store} : Store.Kept s s' →
      (∀ bytes t, s'.stat c.path ≠ .ok (.file bytes t)) → Saved c spec s s'
  | written {s₁ s' : Store} {bytes : List UInt8} : Store.Kept s s₁ →
      Specification.ofBytes bytes = .ok spec → s₁.write c.path bytes = .ok s' → Saved c spec s s'

/-- A specification that was kept in a file is the one that stands there. -/
theorem Saved.ofBytes {spec : Specification} {s s' : Store} (hs : Saved c spec s s')
    (hnone : ∀ bytes t, s.stat c.path ≠ .ok (.file bytes t)) {bytes : List UInt8} {t : Int}
    (h : s'.stat c.path = .ok (.file bytes t)) : Specification.ofBytes bytes = .ok spec := by
  cases hs with
  | same => exact absurd h (hnone bytes t)
  | nowhere _ hno => exact absurd h (hno bytes t)
  | written _ hbytes hw =>
    cases Store.write_stat_self hw h
    exact hbytes

theorem perform_save {spec : Specification} (hn : Store.hasNul c.path = false)
    (hv : spec.version.NoSurrogate) (w : World) :
    ∃ w', (c.save spec).perform w = (.ok (), w') ∧ Saved c spec w.store w'.store := by
  obtain ⟨text, htext, hread⟩ := Specification.exists_text hv
  simp only [save, perform_warning, store, Effect.perform_bind, Effect.perform_makeDirs, htext]
  have hkept := Store.makeDirs_kept w.store c.path.parent
  rcases hm : w.store.makeDirs c.path.parent with ⟨f | u, s₁⟩
  · have hf : f.isFile = true :=
      Store.makeDirs_error_isFile (Store.hasNul_parent hn) (by rw [hm])
    simp only [hf, if_true]
    refine ⟨_, rfl, ?_⟩
    rcases Store.makeDirs_parent_error hm with rfl | hnone
    · exact .same
    · rw [hm] at hkept
      exact .nowhere hkept fun bytes t => hnone _
  · rw [hm] at hkept
    simp only [Effect.write, Effect.perform_update]
    cases hw : s₁.write c.path (Utf8.encodeString text) with
    | error f =>
      have hf : f.isFile = true := Store.write_error_isFile hn hw
      simp only [hf, if_true]
      exact ⟨_, rfl, .nowhere hkept (Store.write_error hw)⟩
    | ok s₂ =>
      exact ⟨_, rfl, .written hkept ((Specification.ofBytes_encodeString text).trans hread) hw⟩

theorem perform_invalidate (w : World) :
    Store.Kept (c.invalidate.perform w).2.store w.store := by
  simp only [invalidate, perform_warning, Effect.perform_update]
  cases hu : w.store.unlink c.path with
  | error f =>
    simp only []
    split <;> exact .refl _
  | ok s => exact Store.unlink_kept hu

theorem hasNul_of_keptIn {s : Store} {r : Option Specification} (h : c.keptIn s = .ok r) :
    Store.hasNul c.path = false := by
  refine Bool.eq_false_iff.2 fun hn => ?_
  rw [keptIn_of_hasNul s hn] at h
  cases h

theorem perform_load_of_kept {w : World} {spec : Specification}
    (h : c.keptIn w.store = .ok (some spec)) :
    ∃ events, (Contract.load c.source k (some c)).perform w =
      (.ok spec, { w with reported := events }) := by
  obtain ⟨events, hl⟩ := perform_load? (c := c) w
  simp only [Contract.load, Effect.perform_bind, hl, h]
  exact ⟨_, rfl⟩

/-- What reading with a kept specification gives, and what it does to the store. -/
theorem load_cases (w : World)
    (hv : ∀ spec, Contract.specOf w.store c.source k = .ok spec → spec.version.NoSurrogate) :
    (∃ f w', (Contract.load c.source k (some c)).perform w = (.error f, w') ∧
      c.keptIn w.store = .error f ∧ w'.store = w.store) ∨
    (∃ spec w', (Contract.load c.source k (some c)).perform w = (.ok spec, w') ∧
      c.keptIn w.store = .ok (some spec) ∧ w'.store = w.store) ∨
    (∃ w', (Contract.load c.source k (some c)).perform w =
        (Contract.specOf w.store c.source k, w') ∧ c.keptIn w.store = .ok none ∧
      (w'.store = w.store ∨ ∃ spec, Contract.specOf w.store c.source k = .ok spec ∧
        Saved c spec w.store w'.store)) := by
  obtain ⟨events, hl⟩ := perform_load? (c := c) w
  simp only [Contract.load, Effect.perform_bind, hl]
  cases hk : c.keptIn w.store with
  | error f => exact Or.inl ⟨f, _, rfl, rfl, rfl⟩
  | ok kept =>
    cases kept with
    | some spec => exact Or.inr (Or.inl ⟨spec, _, rfl, rfl, rfl⟩)
    | none =>
      refine Or.inr (Or.inr ?_)
      obtain ⟨events', hr⟩ := Contract.perform_readPath c.source k { w with reported := events }
      simp only [Effect.perform_bind, hr]
      cases hspec : Contract.specOf w.store c.source k with
      | error f => exact ⟨_, rfl, trivial, Or.inl rfl⟩
      | ok spec =>
        obtain ⟨w', hsave, hsaved⟩ :=
          perform_save (hasNul_of_keptIn hk) (hv spec hspec) { w with reported := events' }
        simp only [hsave]
        exact ⟨w', rfl, trivial, Or.inr ⟨spec, rfl, hsaved⟩⟩

/-- Where there is a file for the first time after loading, what was loaded stands in it. -/
theorem load_kept {w : World}
    (hv : ∀ spec, Contract.specOf w.store c.source k = .ok spec → spec.version.NoSurrogate)
    (hnone : ∀ bytes t, w.store.stat c.path ≠ .ok (.file bytes t)) {bytes : List UInt8}
    (hread : ((Contract.load c.source k (some c)).perform w).2.store.read c.path = .ok bytes) :
    ∃ spec, ((Contract.load c.source k (some c)).perform w).1 = .ok spec ∧
      Specification.ofBytes bytes = .ok spec := by
  obtain ⟨t, hfile⟩ := Store.stat_of_read hread
  rcases load_cases w hv with ⟨f, w', h, -, hs⟩ | ⟨spec, w', h, -, hs⟩ |
    ⟨w', h, -, hs | ⟨spec, hspec, hs⟩⟩
  · exact absurd (by rwa [h, hs] at hfile) (hnone bytes t)
  · exact absurd (by rwa [h, hs] at hfile) (hnone bytes t)
  · exact absurd (by rwa [h, hs] at hfile) (hnone bytes t)
  · rw [h] at hfile ⊢
    exact ⟨spec, hspec, hs.ofBytes hnone hfile⟩

end Cache

end Scaffold
