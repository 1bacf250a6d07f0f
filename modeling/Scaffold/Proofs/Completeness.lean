/-
  Only complete specifications are served, kept ones included: `served_complete`.

  A kept specification is handed out without being looked at again, so what counts is what stands
  in the files: `Stocked` says that every file at a place for kept specifications holds a complete
  one, if it holds any. Sources may be edited, files touched and removed, and any specification may
  be loaded with any place to keep it; `Stocked.perform` is what one such incident keeps, and
  `Stocked.served` what comes of a run.
-/
import Scaffold.Proofs.Reload
import Scaffold.Proofs.Walk

namespace Scaffold

/-! ## Files under change -/

namespace Entry

variable {e old : Entry} {now time t : Int} {b : List UInt8}

/-- Setting a time changes no bytes. -/
theorem look_withTime {way : Way} (h : (e.withTime time).look way = some (.file b t)) :
    ∃ t', e.look way = some (.file b t') := by
  cases e with
  | file bytes t₀ =>
    cases way with
    | nil => cases h; exact ⟨t₀, rfl⟩
    | cons n way => cases h
  | dir es t₀ =>
    cases way with
    | nil => cases h
    | cons n way => exact ⟨t, h⟩

theorem look_put_withTime {way way' : Way} (hold : e.get? way = some old)
    (h : (put now (old.withTime time) way e).look way' = some (.file b t)) :
    ∃ t', e.look way' = some (.file b t') := by
  induction way generalizing e way' with
  | nil =>
    cases hold
    exact look_withTime h
  | cons name rest ih =>
    cases e with
    | file bytes t₀ => cases hold
    | dir es t₀ =>
      cases hf : find? name es with
      | none => simp [get?, child?, hf] at hold
      | some c =>
        have hc : c.get? rest = some old := by simpa [get?, child?, hf] using hold
        rw [put_of_find? rest hf] at h
        cases way' with
        | nil => cases h
        | cons n way' =>
          rw [look_dir] at h ⊢
          by_cases hn : n = name
          · subst hn
            rw [find?_insert_self] at h
            rw [hf]
            exact ih hc h
          · rw [find?_insert_of_ne hn] at h
            exact ⟨t, h⟩

end Entry

namespace Store

variable {s s' : Store} {p : Path} {b : List UInt8} {t : Int}

theorem writeAt_eq_ok {bytes : List UInt8} {time : Int} (h : s.writeAt p bytes time = .ok s') :
    s.top.look (s.target p) ≠ some .dir ∧ s' = s.place (s.target p) (.file bytes time) := by
  unfold writeAt at h
  split at h
  · cases h
  · next way hl =>
    obtain rfl := target_of_locate hl
    split at h
    · cases h
    · next hd =>
      cases h
      refine ⟨fun hlook => ?_, rfl⟩
      obtain ⟨es, t, hg⟩ := get?_of_look_dir hlook
      exact hd es t hg

theorem touch_eq_ok {time : Int} (h : s.touch p time = .ok s') :
    ∃ e, s.top.get? (s.target p) = some e ∧ s' = s.place (s.target p) (e.withTime time) := by
  unfold touch at h
  split at h
  · cases h
  · next way hl =>
    obtain rfl := target_of_locate hl
    split at h
    · cases h
    · next e he => cases h; exact ⟨e, he, rfl⟩

/-- At these places no file has other bytes than before. -/
structure Unwritten (ways : Way → Prop) (s s' : Store) : Prop where
  base : s'.base = s.base
  look : ∀ way, ways way → ∀ b t, s'.top.look way = some (.file b t) →
    ∃ t', s.top.look way = some (.file b t')

namespace Unwritten

variable {ways : Way → Prop}

theorem of_kept (h : Kept s' s) : Unwritten ways s s' :=
  ⟨h.base.symm, fun way _ _ t hf => ⟨t, h.look way _ hf⟩⟩

theorem refl : Unwritten ways s s := ⟨rfl, fun _ _ _ t hf => ⟨t, hf⟩⟩

theorem trans {s'' : Store} (h : Unwritten ways s s') (h' : Unwritten ways s' s'') :
    Unwritten ways s s'' := by
  refine ⟨h'.base.trans h.base, fun way hway b t hf => ?_⟩
  obtain ⟨t', hf'⟩ := h'.look way hway b t hf
  exact h.look way hway b t' hf'

theorem of_makeDirs (s : Store) (p : Path) : Unwritten ways s (s.makeDirs p).2 := by
  have hgrows := makeDirs_grows (fun _ => False) s p
  exact ⟨hgrows.fits.base, fun way _ b t hf => ⟨t, (hgrows.file_iff id b t).1 hf⟩⟩

theorem of_writeAt {bytes : List UInt8} {time : Int} (h : s.writeAt p bytes time = .ok s')
    (hw : ¬ ways (s.target p)) : Unwritten ways s s' := by
  obtain ⟨hd, rfl⟩ := writeAt_eq_ok h
  refine ⟨rfl, fun way hway b t hf => ⟨t, ?_⟩⟩
  have hne : way ≠ s.target p := fun heq => hw (heq ▸ hway)
  rwa [look_place_of_ne (Entry.bare_file bytes time) hd hne] at hf

theorem of_touch {time : Int} (h : s.touch p time = .ok s') : Unwritten ways s s' := by
  obtain ⟨e, he, rfl⟩ := touch_eq_ok h
  exact ⟨rfl, fun way _ b t hf => Entry.look_put_withTime he hf⟩

theorem read_eq (h : Unwritten ways s s') (hp : ways (s.target p)) {b b' : List UInt8}
    (hs : s.read p = .ok b) (hs' : s'.read p = .ok b') : b' = b := by
  obtain ⟨t, hs⟩ := stat_of_read hs
  obtain ⟨way, hl, hf⟩ := stat_file_iff.1 hs
  obtain ⟨t', hs'⟩ := stat_of_read hs'
  obtain ⟨way', hl', hf'⟩ := stat_file_iff.1 hs'
  obtain rfl : way = way' := by
    rw [target_of_locate hl, target_of_locate hl', target_congr h.base]
  obtain ⟨t'', hf''⟩ := h.look way (target_of_locate hl ▸ hp) b' t' hf'
  rw [hf] at hf''
  cases hf''
  rfl

end Unwritten

end Store

/-! ## Complete specifications -/

namespace Contract

open Store

variable {spec : Specification} {p : Path} {k : Conventions} {cache : Option Cache} {w : World}

/-- A specification with operations, types and capabilities and with every required operation. -/
structure Complete (spec : Specification) : Prop where
  operations : spec.operations ≠ []
  types : spec.types ≠ []
  capabilities : spec.capabilities ≠ []
  required : ∀ name ∈ ["Get", "List", "Create", "Update", "Delete"], name ∈ spec.operationNames

theorem missing?_eq_none : missing? spec = none ↔ Complete spec := by
  have hrequired : (requiredOperations.find? fun name => !spec.operationNames.contains name) =
      none ↔ ∀ name ∈ ["Get", "List", "Create", "Update", "Delete"],
        name ∈ spec.operationNames := by
    simp [requiredOperations]
  unfold missing?
  constructor
  · intro h
    split at h
    · cases h
    next hops =>
    split at h
    · cases h
    next htypes =>
    split at h
    · cases h
    next hnames =>
    split at h
    · cases h
    next hcaps =>
    exact ⟨by simpa using hops, by simpa using htypes, by simpa using hcaps, hrequired.1 hnames⟩
  · rintro ⟨hops, htypes, hcaps, hnames⟩
    rw [if_neg (by simpa using hops), if_neg (by simpa using htypes), hrequired.2 hnames]
    simpa using hcaps

theorem complete_of_specOf {s : Store} (h : specOf s p k = .ok spec) : Complete spec := by
  unfold specOf at h
  split at h
  · cases h
  · obtain ⟨-, -, -, -, hnone⟩ := readTree_ok_iff.1 h
    exact missing?_eq_none.1 hnone

/-! ## What loading gives and what it leaves -/

/-- A kept specification is given as it is; else the source is read, and what it gives is kept
    before it is given. -/
theorem perform_load_some (p : Path) (k : Conventions) (c : Cache) (w : World) :
    (∃ f w', (load p k (some c)).perform w = (.error f, w') ∧ w'.store = w.store) ∨
    (∃ spec w', (load p k (some c)).perform w = (.ok spec, w') ∧ w'.store = w.store ∧
      c.keptIn w.store = .ok (some spec)) ∨
    ∃ spec w₁, specOf w.store p k = .ok spec ∧ w₁.store = w.store ∧
      (load p k (some c)).perform w =
        (((c.save spec).perform w₁).1.map fun _ => spec, ((c.save spec).perform w₁).2) := by
  obtain ⟨events, hl⟩ := Cache.perform_load? (c := c) w
  simp only [load, Effect.perform_bind, hl]
  rcases hk : c.keptIn w.store with f | _ | spec
  · exact Or.inl ⟨f, _, rfl, rfl⟩
  · obtain ⟨events', hr⟩ := perform_readPath p k { w with reported := events }
    simp only [Effect.perform_bind, hr]
    cases hspec : specOf w.store p k with
    | error f => exact Or.inl ⟨f, _, rfl, rfl⟩
    | ok spec =>
      refine Or.inr (Or.inr ⟨spec, { w with reported := events' }, rfl, rfl, ?_⟩)
      simp only []
      rcases (c.save spec).perform { w with reported := events' } with ⟨f | u, w'⟩ <;> rfl
  · exact Or.inr (Or.inl ⟨spec, _, rfl, rfl, rfl⟩)

end Contract

/-- Keeping a specification makes directories and then writes it, or writes nothing. -/
theorem Cache.save_store (c : Cache) (spec : Specification) (w : World) :
    ((c.save spec).perform w).2.store = (w.store.makeDirs c.path.parent).2 ∨
    ∃ bytes, Specification.ofBytes bytes = .ok spec ∧
      (w.store.makeDirs c.path.parent).2.write c.path bytes =
        .ok ((c.save spec).perform w).2.store := by
  rw [save, perform_warning, perform_store]
  rcases w.store.makeDirs c.path.parent with ⟨f | u, s₁⟩
  · left
    simp only []
    split <;> rfl
  · cases htext : spec.toText? with
    | none => exact Or.inl rfl
    | some text =>
      cases hw : s₁.write c.path (Utf8.encodeString text) with
      | ok s₂ => exact Or.inr ⟨_, Specification.ofBytes_of_toText? htext, by simp only [hw]⟩
      | error f =>
        left
        simp only [hw]
        split <;> rfl

namespace Contract

open Store

variable {spec : Specification} {p : Path} {k : Conventions} {cache : Option Cache} {w : World}

/-! ## Incidents -/

/-- What can happen to the files of sources and of kept specifications. -/
inductive Incident where
  /-- A source gets other bytes, with any time; directories above it are made. -/
  | edit (p : Path) (bytes : List UInt8) (time : Int)
  | touch (p : Path) (time : Int)
  | remove (p : Path)
  | invalidate (c : Cache)
  | parse (p : Path) (k : Conventions) (cache : Option Cache)

namespace Incident

/-- The world after an incident. -/
def perform (w : World) : Incident → World
  | edit p bytes time => ((do
      Effect.makeDirs p.parent
      Effect.update (·.writeAt p bytes time) : Effect Unit).perform w).2
  | touch p time => ((Effect.update (·.touch p time)).perform w).2
  | remove p => ((Effect.update (·.removeAll p)).perform w).2
  | invalidate c => (c.invalidate.perform w).2
  | parse p k cache => ((load p k cache).perform w).2

/-- The specification that an incident hands out. -/
def given? (w : World) : Incident → Option Specification
  | parse p k cache => ((load p k cache).perform w).1.toOption
  | _ => none

/-- Specifications are kept at paths in `kept` only, and nothing else is written where these lead
    from the working directory of `s₀`. -/
def Respects (s₀ : Store) (kept : Path → Prop) : Incident → Prop
  | edit p _ _ => ∀ q, kept q → s₀.target p ≠ s₀.target q
  | parse _ _ (some c) => kept c.path
  | _ => True

end Incident

/-- The specifications that are handed out in a run of incidents, each at its time. -/
def served (w : World) : List (Int × Incident) → List Specification
  | [] => []
  | (t, a) :: rest =>
    (a.given? (Cache.atTime w t)).toList ++ served (a.perform (Cache.atTime w t)) rest

/-! ## The invariant -/

/-- Where the paths in `kept` lead from the working directory of `s₀`. -/
def placesOf (s₀ : Store) (kept : Path → Prop) (way : Way) : Prop :=
  ∃ q, kept q ∧ s₀.target q = way

/-- Incidents other than loading write nothing where the paths in `kept` lead. -/
theorem Incident.unwritten {s₀ : Store} {kept : Path → Prop} {a : Incident}
    (ha : a.Respects s₀ kept) (hbase : w.store.base = s₀.base)
    (hparse : ∀ p k cache, a ≠ .parse p k cache) :
    Unwritten (placesOf s₀ kept) w.store (a.perform w).store := by
  cases a with
  | edit p bytes time =>
    have hdirs : Unwritten (placesOf s₀ kept) w.store _ := .of_makeDirs w.store p.parent
    simp only [Incident.perform, Effect.perform_bind, Effect.perform_makeDirs]
    rcases hm : w.store.makeDirs p.parent with ⟨f | u, s₁⟩ <;> rw [hm] at hdirs
    · exact hdirs
    · simp only [Effect.perform_update]
      cases hw : s₁.writeAt p bytes time with
      | error f => exact hdirs
      | ok s₂ =>
        refine hdirs.trans (.of_writeAt hw ?_)
        rintro ⟨q, hq, htarget⟩
        exact ha q hq (by rw [htarget, target_congr (hdirs.base.trans hbase)])
  | touch p time =>
    simp only [Incident.perform, Effect.perform_update]
    cases ht : w.store.touch p time with
    | error f => exact .refl
    | ok s => exact .of_touch ht
  | remove p =>
    simp only [Incident.perform, Effect.perform_update]
    cases hr : w.store.removeAll p with
    | error f => exact .refl
    | ok s => exact .of_kept (removeAll_kept hr)
  | invalidate c => exact .of_kept (c.perform_invalidate w)
  | parse p k cache => exact absurd rfl (hparse p k cache)

/-- Whatever specification stands in a file where the paths in `kept` lead is complete. -/
structure Stocked (s₀ : Store) (kept : Path → Prop) (s : Store) : Prop where
  base : s.base = s₀.base
  complete : ∀ way, placesOf s₀ kept way → ∀ b t, s.top.look way = some (.file b t) →
    ∀ spec, Specification.ofBytes b = .ok spec → Complete spec

namespace Stocked

variable {s₀ s s' : Store} {kept : Path → Prop}

theorem of_unwritten (h : Stocked s₀ kept s) (hu : Unwritten (placesOf s₀ kept) s s') :
    Stocked s₀ kept s' := by
  refine ⟨hu.base.trans h.base, fun way hway b t hf => ?_⟩
  obtain ⟨t', hf'⟩ := hu.look way hway b t hf
  exact h.complete way hway b t' hf'

/-- A complete specification may be written anywhere. -/
theorem of_write (h : Stocked s₀ kept s) (hspec : Complete spec) {bytes : List UInt8}
    (hb : Specification.ofBytes bytes = .ok spec) (hw : s.write p bytes = .ok s') :
    Stocked s₀ kept s' := by
  obtain ⟨way', -, hd, rfl⟩ := write_eq_ok hw
  refine ⟨h.base, fun way hway b t hf spec' hb' => ?_⟩
  by_cases heq : way = way'
  · subst heq
    cases get?_place_self (Entry.look_file_iff.1 hf)
    rw [hb] at hb'
    cases hb'
    exact hspec
  · rw [look_place_of_ne (Entry.bare_file bytes s.now) hd heq] at hf
    exact h.complete way hway b t hf spec' hb'

theorem at_time (h : Stocked s₀ kept w.store) (t : Int) :
    Stocked s₀ kept (Cache.atTime w t).store :=
  ⟨h.base, h.complete⟩

theorem save (h : Stocked s₀ kept w.store) (hspec : Complete spec) (c : Cache) :
    Stocked s₀ kept ((c.save spec).perform w).2.store := by
  have hdirs := h.of_unwritten (.of_makeDirs w.store c.path.parent)
  rcases c.save_store spec w with hs | ⟨bytes, hb, hw⟩
  · rw [hs]
    exact hdirs
  · exact hdirs.of_write hspec hb hw

/-- An incident keeps what is stocked complete. -/
theorem perform (h : Stocked s₀ kept w.store) {a : Incident} (ha : a.Respects s₀ kept) :
    Stocked s₀ kept (a.perform w).store := by
  cases a with
  | parse p k cache =>
    simp only [Incident.perform]
    cases cache with
    | none =>
      obtain ⟨events, hr⟩ := perform_readPath p k w
      simp only [load, hr]
      exact h
    | some c =>
      rcases perform_load_some p k c w with ⟨f, w', hl, hs⟩ | ⟨spec, w', hl, hs, -⟩ |
        ⟨spec, w₁, hspec, hs, hl⟩
      · rw [hl, hs]
        exact h
      · rw [hl, hs]
        exact h
      · rw [hl]
        exact Stocked.save (hs ▸ h) (complete_of_specOf hspec) c
  | _ => exact h.of_unwritten (Incident.unwritten ha h.base (by simp))

/-- What an incident hands out is complete. -/
theorem given (h : Stocked s₀ kept w.store) {a : Incident} (ha : a.Respects s₀ kept)
    (hg : a.given? w = some spec) : Complete spec := by
  cases a with
  | parse p k cache =>
    simp only [Incident.given?, Except.toOption] at hg
    cases cache with
    | none =>
      obtain ⟨events, hr⟩ := perform_readPath p k w
      simp only [load, hr] at hg
      cases hspec : specOf w.store p k with
      | error f => simp [hspec] at hg
      | ok spec' =>
        obtain rfl : spec' = spec := by simpa [hspec] using hg
        exact complete_of_specOf hspec
    | some c =>
      rcases perform_load_some p k c w with ⟨f, w', hl, -⟩ | ⟨spec', w', hl, -, hk⟩ |
        ⟨spec', w₁, hspec, -, hl⟩
      · simp [hl] at hg
      · obtain rfl : spec' = spec := by simpa [hl] using hg
        -- it was kept, so a file at its place holds it
        obtain ⟨bytes, t, source, hfile, -, -, hb⟩ := Cache.keptIn_some hk
        obtain ⟨way, hl, hf⟩ := stat_file_iff.1 hfile
        rw [target_of_locate hl, target_congr h.base] at hf
        exact h.complete _ ⟨c.path, ha, rfl⟩ bytes t hf spec' hb
      · obtain rfl : spec' = spec := by
          rw [hl] at hg
          cases hsave : ((c.save spec').perform w₁).1 with
          | error f => simp [hsave, Except.map] at hg
          | ok u => simpa [hsave, Except.map] using hg
        exact complete_of_specOf hspec
  | _ => cases hg

/-- Along a run everything that is handed out is complete. -/
theorem served (h : Stocked s₀ kept w.store) {run : List (Int × Incident)}
    (hrun : ∀ x ∈ run, x.2.Respects s₀ kept) : ∀ spec ∈ Contract.served w run, Complete spec := by
  induction run generalizing w with
  | nil => simp [Contract.served]
  | cons x run ih =>
    obtain ⟨t, a⟩ := x
    have ha : a.Respects s₀ kept := hrun (t, a) (by simp)
    intro spec hspec
    rcases List.mem_append.1 hspec with hg | hrest
    · exact (h.at_time t).given ha (by simpa using hg)
    · exact ih ((h.at_time t).perform ha) (fun y hy => hrun y (by simp [hy])) spec hrest

end Stocked

theorem stocked_of_none {s : Store} {kept : Path → Prop}
    (h : ∀ q, kept q → ∀ b t, s.top.look (s.target q) ≠ some (.file b t)) : Stocked s kept s :=
  ⟨rfl, fun _ ⟨q, hq, hway⟩ b t hf => absurd (hway ▸ hf) (h q hq b t)⟩

/-- **Only complete specifications are served.** Let sources be edited, files be touched and
    removed, and specifications be loaded by any conventions, from any source and with any place to
    keep them, in any order and at any times. Where there is no file at the places for kept
    specifications at first and nothing but kept specifications is written there, every
    specification that is handed out passes the check for completeness. -/
theorem served_complete {w : World} {kept : Path → Prop} {run : List (Int × Incident)}
    (hnone : ∀ q, kept q → ∀ b t, w.store.top.look (w.store.target q) ≠ some (.file b t))
    (hrun : ∀ x ∈ run, x.2.Respects w.store kept) :
    ∀ spec ∈ served w run, missing? spec = none ∧ Complete spec := by
  intro spec hspec
  have hcomplete := (stocked_of_none hnone).served hrun spec hspec
  exact ⟨missing?_eq_none.2 hcomplete, hcomplete⟩

/-- What was loaded and kept is loaded again where a file was emptied, if it is newer than the
    source. -/
theorem served_emptied {c : Cache} {k : Conventions} {w : World} {bytes bytes' : List UInt8}
    (hv : ∀ spec, specOf w.store c.source k = .ok spec → spec.version.NoSurrogate)
    (hnone : ∀ bytes t, w.store.stat c.path ≠ .ok (.file bytes t))
    (hne : w.store.target c.source ≠ w.store.target c.path) (t t' t'' time : Int) :
    let w₁ := (Incident.parse c.source k (some c)).perform (Cache.atTime w t)
    let w₂ := (Incident.edit c.source [] time).perform (Cache.atTime w₁ t')
    w₁.store.base = w.store.base → w₁.store.read c.path = .ok bytes →
      w₂.store.read c.path = .ok bytes' → c.freshIn w₂.store = .ok true →
      ∃ spec, served w [(t, .parse c.source k (some c)), (t', .edit c.source [] time),
        (t'', .parse c.source k (some c)), (t'', .parse c.source k none)] =
          spec :: spec :: (specOf w₂.store c.source k).toOption.toList := by
  intro w₁ w₂ hbase hread hread' hfresh
  have hunwritten : Unwritten (placesOf w.store (· = c.path)) (Cache.atTime w₁ t').store
      w₂.store :=
    Incident.unwritten (by rintro q rfl; exact hne) hbase (by simp)
  obtain rfl : bytes' = bytes :=
    hunwritten.read_eq ⟨_, rfl, (target_congr hbase _).symm⟩ hread hread'
  obtain ⟨spec, hload, hspec⟩ := Cache.load_kept (w := Cache.atTime w t) hv hnone hread
  have hkept : c.keptIn w₂.store = .ok (some spec) := Cache.keptIn_of_fresh hfresh hread' hspec
  obtain ⟨events, hagain⟩ := Cache.perform_load_of_kept (k := k)
    (w := Cache.atTime w₂ t'') hkept
  -- each of the three loads in turn: kept, served from there, and read from the emptied file
  have hfirst : Incident.given? (Cache.atTime w t) (.parse c.source k (some c)) = some spec := by
    rw [Incident.given?, hload]
    rfl
  have hsecond : Incident.given? (Cache.atTime w₂ t'') (.parse c.source k (some c)) =
      some spec := by
    rw [Incident.given?, hagain]
    rfl
  have hthird : Incident.given? (Cache.atTime ((Incident.parse c.source k (some c)).perform
      (Cache.atTime w₂ t'')) t'') (.parse c.source k none) =
        (specOf w₂.store c.source k).toOption := by
    rw [Incident.perform, hagain]
    obtain ⟨events', hread⟩ := perform_readPath c.source k ⟨(Cache.atTime w₂ t'').store, events⟩
    exact congrArg (fun r => r.1.toOption) hread
  refine ⟨spec, ?_⟩
  change (Incident.given? (Cache.atTime w t) _).toList ++ ([] ++
    ((Incident.given? (Cache.atTime w₂ t'') _).toList ++ (Option.toList _ ++ []))) = _
  rw [hfirst, hsecond, hthird, List.append_nil]
  rfl

/-- The place where a specification is kept. -/
def keeper : Cache := Cache.beside "c"

/-- A source is written. -/
def written : World :=
  (Incident.edit keeper.source Cache.briefSource 1).perform (Cache.atTime Cache.emptyWorld 1)

/-- A source is written, and its specification is loaded and kept. Then the source is emptied, with
    an older time. It is loaded from what is kept, and without that. -/
def emptiedSource : List (Int × Incident) :=
  [(1, .edit keeper.source Cache.briefSource 1),
    (2, .parse keeper.source Cache.brief (some keeper)),
    (3, .edit keeper.source [] 0),
    (4, .parse keeper.source Cache.brief (some keeper)),
    (4, .parse keeper.source Cache.brief none)]

theorem files_emptiedSource :
    let w₁ := (Incident.parse keeper.source Cache.brief (some keeper)).perform
      (Cache.atTime written 2)
    let w₂ := (Incident.edit keeper.source [] 0).perform (Cache.atTime w₁ 3)
    (written.store.stat keeper.path).toOption.isNone = true ∧
    (specOf written.store keeper.source Cache.brief).toOption.all (·.toText?.isSome) = true ∧
    written.store.target keeper.source ≠ written.store.target keeper.path ∧
    w₁.store.base = written.store.base ∧ (w₁.store.read keeper.path).toOption.isSome = true ∧
    (w₂.store.read keeper.path).toOption.isSome = true ∧
    (keeper.freshIn w₂.store).toOption = some true ∧
    (specOf w₂.store keeper.source Cache.brief).toOption.isNone = true := by
  decide +kernel

/-- The specification that is kept is served again, although the source no longer has one. -/
theorem served_complete_emptiedSource : ∃ spec,
    served Cache.emptyWorld emptiedSource = [spec, spec] ∧ missing? spec = none ∧
    Complete spec := by
  obtain ⟨hnone, hclean, hne, hbase, hread, hread', hfresh, hempty⟩ := files_emptiedSource
  obtain ⟨bytes, hread⟩ := Option.isSome_iff_exists.1 hread
  obtain ⟨bytes', hread'⟩ := Option.isSome_iff_exists.1 hread'
  have hv (spec : Specification) (hspec : specOf written.store keeper.source Cache.brief =
      .ok spec) : spec.version.NoSurrogate := by
    by_contra hv
    rw [hspec, Except.toOption, Option.all_some, Specification.toText?_eq_none.2 hv] at hclean
    cases hclean
  have hfile (bytes : List UInt8) (t : Int) : written.store.stat keeper.path ≠
      .ok (.file bytes t) := fun h => by
    rw [h] at hnone
    cases hnone
  have hstart (rest : List (Int × Incident)) : served Cache.emptyWorld
      ((1, .edit keeper.source Cache.briefSource 1) :: rest) = served written rest := rfl
  have hread := eq_ok_of_toOption hread
  have hread' := eq_ok_of_toOption hread'
  have hfresh := eq_ok_of_toOption hfresh
  obtain ⟨spec, hserved⟩ := served_emptied hv hfile hne 2 3 4 0 hbase hread hread' hfresh
  rw [Option.isNone_iff_eq_none.1 hempty, ← hstart] at hserved
  have hmem : spec ∈ served Cache.emptyWorld emptiedSource := by
    rw [emptiedSource, hserved]
    exact List.mem_cons_self ..
  refine ⟨spec, hserved, ?_⟩
  have hnone : ∀ q, q = keeper.path → ∀ b t,
      Cache.emptyWorld.store.top.look (Cache.emptyWorld.store.target q) ≠ some (.file b t) := by
    rintro q rfl b t hf
    cases hf
  refine served_complete hnone (fun x hx => ?_) spec hmem
  simp only [emptiedSource, List.mem_cons, List.not_mem_nil, or_false] at hx
  rcases hx with rfl | rfl | rfl | rfl | rfl <;> simp [Incident.Respects] <;> decide

end Contract

end Scaffold
