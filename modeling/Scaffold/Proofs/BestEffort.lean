/-
  Keeping specifications is best effort, up to two failures that are not taken for failures of
  files.

  `load?_fails_iff` and `save_fails_iff` say of looking for a kept specification and of keeping one
  when they fail. A zero character in a path is one reason; the other is a version with a surrogate,
  for which there is no text to keep. What files and directories stand where never is a reason.
  `load_best_effort` puts both together with reading the source.
-/
import Scaffold.Proofs.Cache

namespace Scaffold

namespace Store

variable {s : Store} {p : Path}

theorem ensureDir_of_hasNul (h : hasNul p = true) : s.ensureDir p = (.error .nulInPath, s) := by
  simp [ensureDir, makeDir, locate, h, accept]

theorem makeDirs_of_hasNul (h : hasNul p = true) : (s.makeDirs p).1 = .error .nulInPath := by
  unfold makeDirs
  cases p.parts.length with
  | zero => rw [makeDirsFrom, ensureDir_of_hasNul h]
  | succ above => rw [makeDirsFrom, ensureDir_of_hasNul h]

theorem write_of_hasNul (h : hasNul p = true) (bytes : List UInt8) :
    s.write p bytes = .error .nulInPath := by
  simp [write, writeAt, locate, h]

/-- Directories are made, or something is wrong with files, or the path has a zero character. -/
theorem makeDirs_cases (s : Store) (p : Path) :
    (s.makeDirs p).1 = .ok () ∨
    (∃ f, (s.makeDirs p).1 = .error f ∧ f.isFile = true ∧ hasNul p = false) ∨
    ((s.makeDirs p).1 = .error .nulInPath ∧ hasNul p = true) := by
  cases hn : hasNul p with
  | true => exact Or.inr (Or.inr ⟨makeDirs_of_hasNul hn, rfl⟩)
  | false =>
    cases hm : (s.makeDirs p).1 with
    | ok u => exact Or.inl rfl
    | error f => exact Or.inr (Or.inl ⟨f, rfl, makeDirs_error_isFile hn hm, rfl⟩)

end Store

namespace Cache

variable {c : Cache} {k : Contract.Conventions} {w : World}

/-! ## Looking for what is kept -/

theorem keptIn_fails_iff {s : Store} :
    (∃ f, c.keptIn s = .error f) ↔
      Store.hasNul c.path = true ∨ Store.hasNul c.source = true ∧ ∃ e, s.stat c.path = .ok e := by
  constructor
  · rintro ⟨f, hf⟩
    cases hp : s.stat c.path with
    | ok e =>
      obtain ⟨-, hn⟩ := keptIn_error hf
      exact hn.imp id fun hs => ⟨hs, e, rfl⟩
    | error g =>
      -- the source is not even looked at, so the path itself cannot be followed
      by_cases hg : g.isFile = true
      · simp [keptIn, freshIn, hp, hg] at hf
      · exact Or.inl (Store.stat_error hp (by simpa using hg)).1
  · rintro (hn | ⟨hn, e, he⟩)
    · exact ⟨_, keptIn_of_hasNul s hn⟩
    · exact ⟨.nulInPath, by simp [keptIn, freshIn, he, Store.stat_of_hasNul hn, Failure.isFile]⟩

theorem load?_fails_iff :
    (∃ f, (c.load?.perform w).1 = .error f) ↔
      Store.hasNul c.path = true ∨
        Store.hasNul c.source = true ∧ ∃ e, w.store.stat c.path = .ok e := by
  obtain ⟨events, h⟩ := perform_load? (c := c) w
  rw [h]
  exact keptIn_fails_iff

/-! ## Keeping -/

/-- Keeping a specification makes the directories above first, then asks for the text, and then
    writes it. -/
theorem perform_save_fst (spec : Specification) (w : World) :
    ((c.save spec).perform w).1 =
      match (w.store.makeDirs c.path.parent).1 with
      | .error f => if f.isFile then .ok () else .error f
      | .ok _ =>
        if Store.hasNul c.path then .error (if spec.toText?.isSome then .nulInPath else .unwritable)
        else if spec.toText?.isSome then .ok () else .error .unwritable := by
  simp only [save, perform_warning, store, Effect.perform_bind, Effect.perform_makeDirs]
  rcases w.store.makeDirs c.path.parent with ⟨f | u, s₁⟩
  · simp only []
    split <;> rfl
  · simp only []
    cases htext : spec.toText? with
    | none => simp [Failure.isFile]
    | some text =>
      simp only [Effect.write, Effect.perform_update]
      cases hn : Store.hasNul c.path with
      | true => simp [Store.write_of_hasNul hn, Failure.isFile]
      | false =>
        cases hw : s₁.write c.path (Utf8.encodeString text) with
        | error f => simp [Store.write_error_isFile hn hw]
        | ok s₂ => rfl

theorem save_fails_iff (spec : Specification) :
    (∃ f, ((c.save spec).perform w).1 = .error f) ↔
      Store.hasNul c.path.parent = true ∨
        (w.store.makeDirs c.path.parent).1 = .ok () ∧
          (Store.hasNul c.path = true ∨ ¬ spec.version.NoSurrogate) := by
  rw [perform_save_fst, ← Specification.toText?_eq_none]
  rcases Store.makeDirs_cases w.store c.path.parent with hm | ⟨f, hm, hf, hn⟩ | ⟨hm, hn⟩
  · have hn : Store.hasNul c.path.parent = false := by
      refine Bool.eq_false_iff.2 fun hn => ?_
      rw [Store.makeDirs_of_hasNul hn] at hm
      cases hm
    cases hp : Store.hasNul c.path <;> cases ht : spec.toText? <;> simp [hm, hn]
  · simp [hm, hf, hn]
  · simp [hm, hn, Failure.isFile]

/-! ## Loading -/

theorem load_fst (w : World) :
    ((Contract.load c.source k (some c)).perform w).1 =
      match c.keptIn w.store with
      | .error f => .error f
      | .ok (some spec) => .ok spec
      | .ok none =>
        match Contract.specOf w.store c.source k with
        | .error f => .error f
        | .ok spec => ((c.save spec).perform w).1.map fun _ => spec := by
  obtain ⟨events, hl⟩ := perform_load? (c := c) w
  simp only [Contract.load, Effect.perform_bind, hl]
  rcases c.keptIn w.store with f | _ | spec
  · rfl
  · obtain ⟨events', hr⟩ := Contract.perform_readPath c.source k { w with reported := events }
    simp only [Effect.perform_bind, hr]
    cases Contract.specOf w.store c.source k with
    | error f => rfl
    | ok spec =>
      -- what is reported does not matter to keeping
      have hs : ((c.save spec).perform { w with reported := events' }).1 =
          ((c.save spec).perform w).1 := by rw [perform_save_fst, perform_save_fst]
      simp only [← hs]
      rcases (c.save spec).perform { w with reported := events' } with ⟨f | u, w'⟩ <;> rfl
  · rfl

/-- **Keeping specifications is best effort.** Whatever stands where, looking for a kept
    specification fails only for a zero character in a path, and keeping one only for that or for a
    surrogate in the version. So loading succeeds wherever reading the source does, but that a path
    with a zero character is refused, and that nothing is loaded where a version with a surrogate
    would have to be kept and there is a directory for it. -/
theorem load_best_effort (c : Cache) (k : Contract.Conventions) (w : World) :
    ((∃ f, (c.load?.perform w).1 = .error f) ↔
      Store.hasNul c.path = true ∨
        Store.hasNul c.source = true ∧ ∃ e, w.store.stat c.path = .ok e) ∧
    (∀ spec, (∃ f, ((c.save spec).perform w).1 = .error f) ↔
      Store.hasNul c.path.parent = true ∨
        (w.store.makeDirs c.path.parent).1 = .ok () ∧
          (Store.hasNul c.path = true ∨ ¬ spec.version.NoSurrogate)) ∧
    ((∃ spec, ((Contract.load c.source k (some c)).perform w).1 = .ok spec) ↔
      Store.hasNul c.path = false ∧
        ((∃ spec, (c.load?.perform w).1 = .ok (some spec)) ∨
          ∃ spec, ((Contract.readPath c.source k).perform w).1 = .ok spec ∧
            (spec.version.NoSurrogate ∨ (w.store.makeDirs c.path.parent).1 ≠ .ok ()))) := by
  refine ⟨load?_fails_iff, fun spec => save_fails_iff spec, ?_⟩
  obtain ⟨_, hl⟩ := perform_load? (c := c) w
  obtain ⟨_, hr⟩ := Contract.perform_readPath c.source k w
  rw [load_fst, hl, hr]
  cases hn : Store.hasNul c.path with
  | true => simp [keptIn_of_hasNul w.store hn]
  | false =>
    have hsave (spec : Specification) : ((c.save spec).perform w).1 = .ok () ↔
        spec.version.NoSurrogate ∨ (w.store.makeDirs c.path.parent).1 ≠ .ok () := by
      have h := save_fails_iff (c := c) (w := w) spec
      simp only [Store.hasNul_parent hn, hn, Bool.false_eq_true, false_or] at h
      cases hs : ((c.save spec).perform w).1 with
      | error f => rw [hs] at h; simp_all
      | ok u => rw [hs] at h; simp_all [imp_iff_not_or, or_comm]
    rcases hk : c.keptIn w.store with f | _ | spec
    · -- then the path of the source has a zero character, and there is nothing to read
      have hs : Store.hasNul c.source = true := by simpa [hn] using (keptIn_error hk).2
      simp [Contract.specOf, Contract.sourceOf, Store.read, Store.stat_of_hasNul hs]
    · cases Contract.specOf w.store c.source k with
      | error f => simp
      | ok spec =>
        have h := hsave spec
        cases hs : ((c.save spec).perform w).1 with
        | error f => simpa [hs, Except.map] using h
        | ok u => simpa [hs, Except.map] using h
    · simp

end Cache

end Scaffold
