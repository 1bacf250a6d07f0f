/-
  A kept specification never shows.

  Take a source and a place to keep its specification, where there is nothing at first. Let the
  source be written and removed, let the kept specification be removed, and let the specification
  be loaded, in any order, such that every file that appears at the two paths is newer than all
  before. Then loading gives at every time what reading the source gives (`load_eq_readPath`), but
  that a path with a zero character is refused.

  The invariant is `Coherent`. What can happen is said once, by `Act.cases`: nothing is new, or the
  source was written, or the specification in the source was kept. `Coherent.act` is what one thing
  that happens keeps, and `coherent_afterActs` what a run keeps.
-/
import Scaffold.Proofs.Cache

namespace Scaffold.Cache

variable {c : Cache} {k : Contract.Conventions}

/-! ## What a kept specification has to do with its source -/

theorem specOf_congr {s s' : Store} {p : Path} {bytes : List UInt8} {t t' : Int}
    (h : s.stat p = .ok (.file bytes t)) (h' : s'.stat p = .ok (.file bytes t')) :
    Contract.specOf s p k = Contract.specOf s' p k := by
  simp only [Contract.specOf, Contract.sourceOf, Store.read, h, h']

/-- Keeping a specification leaves the source as it is, unless it is kept there. -/
theorem Saved.source {spec : Specification} {s s' : Store} (hs : Saved c spec s s')
    {source : List UInt8} {t : Int} (h : s.stat c.source = .ok (.file source t)) {e : Entry}
    (he : s'.stat c.source = .ok e) :
    e = .file source t ∨ ∃ bytes, e = .file bytes s.now := by
  cases hs with
  | same => rw [h] at he; cases he; exact Or.inl rfl
  | nowhere hk hnone => rw [hk.stat_file h] at he; cases he; exact Or.inl rfl
  | @written s₁ _ bytes hk hb hw =>
    rcases Store.write_stat hw he with rfl | ⟨-, e₀, he₀, hkind⟩
    · exact Or.inr ⟨bytes, by rw [hk.now]⟩
    · rw [hk.stat_file h] at he₀
      cases he₀
      exact Or.inl (Entry.eq_file_of_kind hkind.symm)

theorem Saved.not_dirAt {spec : Specification} {s s' : Store} (hs : Saved c spec s s')
    (hspec : Contract.specOf s c.source k = .ok spec) : ¬ s'.DirAt c.source := by
  rintro ⟨es, t, hd⟩
  obtain ⟨source, t₀, hsource⟩ := Contract.stat_of_specOf hspec
  rcases hs.source hsource hd with he | ⟨bytes, he⟩ <;> cases he

/-- What a kept specification and its source have to do with each other: no file is from after
    `latest`, and a kept specification that is newer than the source is the one in the source. -/
structure Coherent (c : Cache) (k : Contract.Conventions) (latest : Int) (s : Store) : Prop where
  kept_le : ∀ bytes t, s.stat c.path = .ok (.file bytes t) → t ≤ latest
  source_le : ∀ bytes t, s.stat c.source = .ok (.file bytes t) → t ≤ latest
  source_file : ∀ bytes t, s.stat c.path = .ok (.file bytes t) → ¬ s.DirAt c.source
  newer : ∀ bytes t source t' spec, s.stat c.path = .ok (.file bytes t) →
    s.stat c.source = .ok (.file source t') → t' < t → Specification.ofBytes bytes = .ok spec →
    Contract.specOf s c.source k = .ok spec

namespace Coherent

variable {latest : Int} {s s' : Store}

/-- Where nothing is new, coherence is kept. -/
theorem of_kept (h : Coherent c k latest s) (hk : Store.Kept s' s) : Coherent c k latest s' where
  kept_le bytes t hs := h.kept_le bytes t (hk.stat_file hs)
  source_le bytes t hs := h.source_le bytes t (hk.stat_file hs)
  source_file bytes t hs hd := by
    obtain ⟨es, t', hd⟩ := hd
    obtain ⟨e, he, hkind⟩ := hk.stat hd
    cases e with
    | file => cases hkind
    | dir es' t'' => exact h.source_file bytes t (hk.stat_file hs) ⟨es', t'', he⟩
  newer bytes t source t' spec hp hs hlt hb := by
    rw [specOf_congr hs (hk.stat_file hs)]
    exact h.newer bytes t source t' spec (hk.stat_file hp) (hk.stat_file hs) hlt hb

theorem mono (h : Coherent c k latest s) {later : Int} (hl : latest ≤ later) :
    Coherent c k later s :=
  ⟨fun b t hs => Int.le_trans (h.kept_le b t hs) hl,
    fun b t hs => Int.le_trans (h.source_le b t hs) hl,
    h.source_file, h.newer⟩

/-- Where no file is new at either path and the source is no directory, coherence is kept. -/
theorem of_untouched (h : Coherent c k latest s) (hd : ¬ s'.DirAt c.source)
    (hp : ∀ bytes t, s'.stat c.path = .ok (.file bytes t) → s.stat c.path = .ok (.file bytes t))
    (hs : ∀ bytes t, s'.stat c.source = .ok (.file bytes t) →
      s.stat c.source = .ok (.file bytes t)) : Coherent c k latest s' where
  kept_le bytes t hk := h.kept_le bytes t (hp bytes t hk)
  source_le bytes t hk := h.source_le bytes t (hs bytes t hk)
  source_file _ _ _ := hd
  newer bytes t source t' spec hk hsrc hlt hb := by
    rw [specOf_congr hsrc (hs source t' hsrc)]
    exact h.newer bytes t source t' spec (hp bytes t hk) (hs source t' hsrc) hlt hb

/-- After the source was written, nothing that is kept is newer. -/
theorem of_replace (h : Coherent c k latest s) (hnow : latest < s.now) {bytes : List UInt8}
    (hw : s.write c.source bytes = .ok s') : Coherent c k s.now s' := by
  have hsource {e : Entry} (he : s'.stat c.source = .ok e) : e = .file bytes s.now :=
    Store.write_stat_self hw he
  have hkept {b : List UInt8} {t : Int} (hb : s'.stat c.path = .ok (.file b t)) :
      t ≤ s.now := by
    rcases Store.write_stat hw hb with he | ⟨-, e, he, hkind⟩
    · cases he; exact Int.le_refl _
    · rw [Entry.eq_file_of_kind hkind] at he
      exact Int.le_trans (h.kept_le b t he) (Int.le_of_lt hnow)
  refine ⟨fun b t => hkept, fun b t hs => ?_, fun b t hs hd => ?_, ?_⟩
  · cases hsource hs; exact Int.le_refl _
  · obtain ⟨es, t', hd⟩ := hd
    cases hsource hd
  · intro b t source t' spec hb hs hlt
    cases hsource hs
    exact absurd (hkept hb) (by omega)

/-- After a specification was kept, it is the one in the source. -/
theorem of_saved (h : Coherent c k latest s) (hnow : latest < s.now) {spec : Specification}
    (hspec : Contract.specOf s c.source k = .ok spec) (hs : Saved c spec s s') :
    Coherent c k s.now s' := by
  obtain ⟨source, t₀, hsource⟩ := Contract.stat_of_specOf hspec
  have hold := h.source_le source t₀ hsource
  have hfile {b : List UInt8} {t : Int} (hb : s'.stat c.path = .ok (.file b t)) : t ≤ s.now := by
    cases hs with
    | same => exact Int.le_trans (h.kept_le b t hb) (Int.le_of_lt hnow)
    | nowhere hk hnone => exact absurd hb (hnone b t)
    | written hk hread hw =>
      cases Store.write_stat_self hw hb
      exact Int.le_of_eq hk.now
  refine ⟨fun b t => hfile, fun b t hst => ?_, fun b t _ hd => ?_,
    fun b t b' t' spec' hb hst hlt hread => ?_⟩
  · rcases hs.source hsource hst with he | ⟨bytes, he⟩
    · cases he; omega
    · cases he; exact Int.le_refl _
  · obtain ⟨es, t', hd⟩ := hd
    rcases hs.source hsource hd with he | ⟨bytes, he⟩ <;> cases he
  · rcases hs.source hsource hst with he | ⟨bytes, he⟩
    · cases he
      rw [specOf_congr hst hsource]
      cases hs with
      | same => exact h.newer b t source t₀ spec' hb hsource hlt hread
      | nowhere hk hnone => exact absurd hb (hnone b t)
      | written hk hb' hw =>
        cases Store.write_stat_self hw hb
        rw [hb'] at hread
        cases hread
        exact hspec
    · cases he
      exact absurd (hfile hb) (by omega)

end Coherent

/-- A kept specification that counts as newer is the one in the source. -/
theorem Coherent.specOf_eq {latest : Int} {s : Store} (h : Coherent c k latest s)
    {spec : Specification} (hk : c.keptIn s = .ok (some spec)) :
    Contract.specOf s c.source k = .ok spec := by
  obtain ⟨bytes, t, source, hp, hs, hlt, hb⟩ := keptIn_some hk
  cases source with
  | dir es t' => exact absurd ⟨es, t', hs⟩ (h.source_file bytes t hp)
  | file b t' => exact h.newer bytes t b t' spec hp hs hlt hb

/-! ## Runs -/

/-- What can happen to a source and to the specification that is kept for it. -/
inductive Act where
  | replace (bytes : List UInt8)
  | remove
  | invalidate
  | parse

/-- The world after something has happened. -/
def Act.perform (c : Cache) (k : Contract.Conventions) (w : World) : Act → World
  | replace bytes => ((Effect.write c.source bytes).perform w).2
  | remove => ((Effect.update (·.removeAll c.source)).perform w).2
  | invalidate => (c.invalidate.perform w).2
  | parse => ((Contract.load c.source k (some c)).perform w).2

/-- The world at another time. -/
def atTime (w : World) (t : Int) : World := { w with store := { w.store with now := t } }

theorem keptIn_atTime (w : World) (t : Int) : c.keptIn (atTime w t).store = c.keptIn w.store := rfl

/-- The world after things have happened, each at its time. -/
def afterActs (c : Cache) (k : Contract.Conventions) (w : World) : List (Int × Act) → World
  | [] => w
  | (t, a) :: rest => afterActs c k (a.perform c k (atTime w t)) rest

/-- Neither path leads to a file that it did not lead to before. -/
def Untouched (c : Cache) (s s' : Store) : Prop :=
  ∀ p, p = c.path ∨ p = c.source → ∀ bytes t,
    s'.stat p = .ok (.file bytes t) → s.stat p = .ok (.file bytes t)

/-- Whatever puts a file at one of the paths happens later than all that did so before, and later
    than `latest`. -/
def Clocked (c : Cache) (k : Contract.Conventions) : Int → World → List (Int × Act) → Prop
  | _, _, [] => True
  | latest, w, (t, a) :: rest =>
    Untouched c w.store (a.perform c k (atTime w t)).store ∧
        Clocked c k latest (a.perform c k (atTime w t)) rest ∨
      latest < t ∧ Clocked c k t (a.perform c k (atTime w t)) rest

/-- Things that happen one after the other, whatever they put where, are in order of time. -/
theorem clocked_of_increasing {latest : Int} {w : World} {acts : List (Int × Act)}
    (h : (latest :: acts.map Prod.fst).Pairwise (· < ·)) : Clocked c k latest w acts := by
  induction acts generalizing latest w with
  | nil => trivial
  | cons x acts ih =>
    obtain ⟨hlt, htail⟩ := List.pairwise_cons.1 h
    exact Or.inr ⟨hlt x.1 (List.mem_cons_self ..), ih htail⟩

/-- All that can happen: nothing is new, or the source was written, or the specification in it was
    kept. -/
theorem Act.cases (a : Act) (w : World)
    (hv : ∀ spec, Contract.specOf w.store c.source k = .ok spec → spec.version.NoSurrogate) :
    Store.Kept (a.perform c k w).store w.store ∨
    (∃ bytes, w.store.write c.source bytes = .ok (a.perform c k w).store) ∨
    (∃ spec, Contract.specOf w.store c.source k = .ok spec ∧
      Saved c spec w.store (a.perform c k w).store) := by
  cases a with
  | replace bytes =>
    simp only [perform, Effect.write, Effect.perform_update]
    cases hw : w.store.write c.source bytes with
    | error f => exact Or.inl (.refl _)
    | ok s => exact Or.inr (Or.inl ⟨bytes, hw⟩)
  | remove =>
    simp only [perform, Effect.perform_update]
    cases hr : w.store.removeAll c.source with
    | error f => exact Or.inl (.refl _)
    | ok s => exact Or.inl (Store.removeAll_kept hr)
  | invalidate => exact Or.inl (perform_invalidate w)
  | parse =>
    simp only [perform]
    rcases load_cases w hv with ⟨f, w', h, -, hs⟩ | ⟨spec, w', h, -, hs⟩ | ⟨w', h, -, hs | hs⟩
    · rw [h]; exact Or.inl (hs ▸ .refl _)
    · rw [h]; exact Or.inl (hs ▸ .refl _)
    · rw [h]; exact Or.inl (hs ▸ .refl _)
    · rw [h]; exact Or.inr (Or.inr hs)

theorem Coherent.at_time {latest : Int} {w : World} (h : Coherent c k latest w.store) (t : Int) :
    Coherent c k latest (atTime w t).store :=
  ⟨h.kept_le, h.source_le, h.source_file, h.newer⟩

/-- What happens keeps coherence, if it puts no file at the paths or does so later than before. -/
theorem Coherent.act {latest : Int} {w : World} (h : Coherent c k latest w.store)
    (hv : ∀ spec, Contract.specOf w.store c.source k = .ok spec → spec.version.NoSurrogate)
    (t : Int) (a : Act) :
    (Untouched c w.store (a.perform c k (atTime w t)).store →
      Coherent c k latest (a.perform c k (atTime w t)).store) ∧
    (latest < t → Coherent c k t (a.perform c k (atTime w t)).store) := by
  have h := h.at_time t
  rcases a.cases (atTime w t) hv with hk | ⟨bytes, hw⟩ | ⟨spec, hspec, hs⟩
  · exact ⟨fun _ => h.of_kept hk, fun hlt => (h.of_kept hk).mono (Int.le_of_lt hlt)⟩
  · refine ⟨fun hu => h.of_untouched ?_ (hu _ (Or.inl rfl)) (hu _ (Or.inr rfl)),
      fun hlt => h.of_replace hlt hw⟩
    rintro ⟨es, t', hd⟩
    cases Store.write_stat_self hw hd
  · exact ⟨fun hu => h.of_untouched (hs.not_dirAt hspec) (hu _ (Or.inl rfl)) (hu _ (Or.inr rfl)),
      fun hlt => h.of_saved hlt hspec hs⟩

/-- Along a run in order of time, coherence is kept. -/
theorem coherent_afterActs {latest : Int} {w : World} {acts : List (Int × Act)}
    (h : Coherent c k latest w.store) (hclock : Clocked c k latest w acts)
    (hv : ∀ before, before <+: acts → ∀ spec,
      Contract.specOf (afterActs c k w before).store c.source k = .ok spec →
        spec.version.NoSurrogate) :
    ∃ latest', Coherent c k latest' (afterActs c k w acts).store := by
  induction acts generalizing latest w with
  | nil => exact ⟨latest, h⟩
  | cons x acts ih =>
    obtain ⟨t, a⟩ := x
    have hact := h.act (hv [] List.nil_prefix) t a
    have hv' (before : List (Int × Act)) (hb : before <+: acts) :=
      hv ((t, a) :: before) (List.cons_prefix_cons.2 ⟨rfl, hb⟩)
    rcases hclock with ⟨hu, hclock⟩ | ⟨hlt, hclock⟩
    · exact ih (hact.1 hu) hclock hv'
    · exact ih (hact.2 hlt) hclock hv'

theorem coherent_of_none {w : World} {latest : Int} (hnone : ∀ e, w.store.stat c.path ≠ .ok e)
    (hsource : ∀ bytes t, w.store.stat c.source = .ok (.file bytes t) → t ≤ latest) :
    Coherent c k latest w.store :=
  ⟨fun _ _ h => absurd h (hnone _), hsource, fun _ _ h => absurd h (hnone _),
    fun _ _ _ _ _ h => absurd h (hnone _)⟩

theorem load_eq_specOf {latest : Int} {w : World} (h : Coherent c k latest w.store)
    (hv : ∀ spec, Contract.specOf w.store c.source k = .ok spec → spec.version.NoSurrogate) :
    ((Contract.load c.source k (some c)).perform w).1 =
      if Store.hasNul c.path then .error .nulInPath else Contract.specOf w.store c.source k := by
  rcases load_cases w hv with ⟨f, w', hl, hk, -⟩ | ⟨spec, w', hl, hk, -⟩ | ⟨w', hl, hk, -⟩
  · obtain ⟨rfl, hn⟩ := keptIn_error hk
    rw [hl]
    split
    · rfl
    · next hp =>
      -- then it is the path of the source that cannot be followed
      have hn : Store.hasNul c.source = true := hn.resolve_left hp
      simp [Contract.specOf, Contract.sourceOf, Store.read, Store.stat_of_hasNul hn, Failure.isFile]
  · rw [hl, hasNul_of_keptIn hk, h.specOf_eq hk]
    rfl
  · rw [hl, hasNul_of_keptIn hk]
    rfl

/-- **A kept specification never shows.** After anything that happens in order of time to the source
    and to what is kept, where nothing was kept at first and no version in the source has a
    surrogate, loading gives what reading the source gives; only a path with a zero character is
    refused. -/
theorem load_eq_readPath {latest : Int} {w : World} {acts : List (Int × Act)}
    (hnone : ∀ e, w.store.stat c.path ≠ .ok e)
    (hsource : ∀ bytes t, w.store.stat c.source = .ok (.file bytes t) → t ≤ latest)
    (hclock : Clocked c k latest w acts)
    (hv : ∀ before, before <+: acts → ∀ spec,
      ((Contract.readPath c.source k).perform (afterActs c k w before)).1 = .ok spec →
        spec.version.NoSurrogate) (t : Int) :
    ((Contract.load c.source k (some c)).perform (atTime (afterActs c k w acts) t)).1 =
      if Store.hasNul c.path then .error .nulInPath
      else ((Contract.readPath c.source k).perform (atTime (afterActs c k w acts) t)).1 := by
  have hread (w : World) : ((Contract.readPath c.source k).perform w).1 =
      Contract.specOf w.store c.source k := by
    obtain ⟨events, h⟩ := Contract.perform_readPath c.source k w
    rw [h]
  simp only [hread] at hv ⊢
  obtain ⟨latest', h⟩ := coherent_afterActs (coherent_of_none hnone hsource) hclock hv
  exact load_eq_specOf (h.at_time t) (hv acts (List.prefix_refl acts))

/-- The source `s` with its specification kept beside it. -/
def beside (name : String) : Cache := ⟨⟨.relative, [name]⟩, ⟨.relative, ["s"]⟩⟩

/-- A world without files. -/
def emptyWorld : World := ⟨Store.empty 0, []⟩

/-- By these conventions one interface can have every part of a specification. -/
def brief : Contract.Conventions := ⟨"V", "A", "A", "A", "", ""⟩

/-- A source with such an interface. -/
def briefSource : List UInt8 :=
  Utf8.encodeString "interface A{Get:A;List:A;Create:A;Update:A;Delete:A}"

/-- The source is written, and its specification is loaded and kept. -/
def keepingActs : List (Int × Act) := [(1, .replace briefSource), (2, .parse)]

/-- Whenever the source is there, it holds a specification that has a text. -/
theorem toText?_keepingActs : ∀ before ∈ keepingActs.inits,
    (Contract.specOf (afterActs (beside "c") brief emptyWorld before).store (beside "c").source
      brief).toOption.all (·.toText?.isSome) = true := by
  decide +kernel

theorem noSurrogate_keepingActs {before : List (Int × Act)} (h : before <+: keepingActs)
    (spec : Specification)
    (hspec : Contract.specOf (afterActs (beside "c") brief emptyWorld before).store
      (beside "c").source brief = .ok spec) : spec.version.NoSurrogate := by
  have htext := toText?_keepingActs before ((List.mem_inits _ _).2 h)
  rw [hspec] at htext
  by_contra hv
  rw [Except.toOption, Option.all_some, Specification.toText?_eq_none.2 hv] at htext
  cases htext

/-- There is no file for the specification at first. Then there is one, newer than the source. -/
theorem files_keepingActs :
    let s := (afterActs (beside "c") brief emptyWorld (keepingActs.take 1)).store
    let s' := (afterActs (beside "c") brief emptyWorld keepingActs).store
    (s.stat (beside "c").path).toOption.isNone = true ∧
      (s'.read (beside "c").path).toOption.isSome = true ∧
      ((beside "c").freshIn s').toOption = some true := by
  decide +kernel

theorem keptIn_keepingActs : ∃ spec, (beside "c").keptIn
    (afterActs (beside "c") brief emptyWorld keepingActs).store = .ok (some spec) := by
  obtain ⟨hnone, hread, hfresh⟩ := files_keepingActs
  obtain ⟨bytes, hread⟩ := Option.isSome_iff_exists.1 hread
  have hclean := fun spec => noSurrogate_keepingActs (List.take_prefix 1 _) spec
  have hparse : afterActs (beside "c") brief emptyWorld keepingActs = Act.parse.perform (beside "c")
    brief (atTime (afterActs (beside "c") brief emptyWorld (keepingActs.take 1)) 2) := rfl
  rw [hparse] at hread hfresh ⊢
  generalize afterActs (beside "c") brief emptyWorld (keepingActs.take 1) = w
    at hnone hclean hread hfresh ⊢
  have hfile (bytes : List UInt8) (t : Int) : w.store.stat (beside "c").path ≠
      .ok (.file bytes t) := fun h => by
    rw [h] at hnone
    cases hnone
  obtain ⟨spec, -, hspec⟩ := load_kept (w := atTime w 2) hclean hfile (eq_ok_of_toOption hread)
  exact ⟨spec, keptIn_of_fresh (eq_ok_of_toOption hfresh) (eq_ok_of_toOption hread) hspec⟩

/-- A specification that is kept is loaded, and it is the one that is read from the source. Beside a
    zero character nothing is kept, and loading is not like reading from the start. -/
theorem load_eq_readPath_kept :
    let c := beside "c"
    let w := atTime (afterActs c brief emptyWorld keepingActs) 3
    (∃ spec, c.keptIn w.store = .ok (some spec) ∧
      ((Contract.load c.source brief (some c)).perform w).1 = .ok spec ∧
      ((Contract.readPath c.source brief).perform w).1 = .ok spec) ∧
    ((Contract.load (beside "\x00").source {} (some (beside "\x00"))).perform emptyWorld).1 ≠
      ((Contract.readPath (beside "\x00").source {}).perform emptyWorld).1 := by
  intro c w
  constructor
  · have hpath : emptyWorld.store.stat c.path = .error (.file .notFound "c") := by cbv
    have hsource : emptyWorld.store.stat c.source = .error (.file .notFound "s") := by cbv
    have hclock : Clocked c brief 0 emptyWorld keepingActs := clocked_of_increasing (by decide)
    have hsame := load_eq_readPath (by simp [hpath]) (by simp [hsource]) hclock
      (fun before hbefore spec hs => noSurrogate_keepingActs hbefore spec (by
        obtain ⟨events, h⟩ := Contract.perform_readPath c.source brief
          (afterActs c brief emptyWorld before)
        rwa [h] at hs)) 3
    rw [if_neg (Bool.eq_false_iff.1 (by cbv))] at hsame
    obtain ⟨spec, hkept⟩ := keptIn_keepingActs
    rw [← keptIn_atTime _ 3] at hkept
    obtain ⟨events, hload⟩ := perform_load_of_kept (k := brief) hkept
    rw [hload] at hsame
    exact ⟨spec, hkept, by rw [hload], hsame.symm⟩
  · have hload : ((Contract.load (beside "\x00").source {} (some (beside "\x00"))).perform
        emptyWorld).1 = .error .nulInPath := by cbv
    have hread : ((Contract.readPath (beside "\x00").source {}).perform emptyWorld).1 =
        .error (Contract.unreadable (beside "\x00").source (.file .notFound "s")) := by cbv
    rw [hload, hread]
    simp [Contract.unreadable, Failure.ofArea]

end Scaffold.Cache
