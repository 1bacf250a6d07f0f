/-
  Writing one file is exact or harmless, but for two kinds of input: `deliver_exact_or_harmless`.

  * `Spared ws p s s'`: away from `ws` a store is as it was, but for directories on the way of `p`.
    Making directories and writing a file are such changes (`makeDirs_spared`, `write_spared`).
  * `Delivered w p t r`: the four ways in which writing a text can end, each with when it does and
    what it leaves behind. `delivered_deliver` says that there is no other.
-/
import Mathlib
import Scaffold.Proofs.Splicing

namespace Scaffold

namespace Store

variable {s s' s'' : Store} {p : Path} {ws : Way → Prop}

/-! ## What is spared -/

/-- The places of a path and of the paths above it. -/
def OnWay (s : Store) (p : Path) (way : Way) : Prop :=
  ∃ parts, parts <+: p.parts ∧ s.target ⟨p.root, parts⟩ = way

/-- Away from `ws` everything is as it was, but for directories on the way of a path where there was
    nothing. -/
def Spared (ws : Way → Prop) (p : Path) (s s' : Store) : Prop :=
  ∀ way, ¬ ws way → s'.top.look way = s.top.look way ∨
    (s.top.look way = none ∧ s'.top.look way = some .dir ∧ s.OnWay p way)

namespace Spared

theorem refl : Spared ws p s s := fun _ _ => Or.inl rfl

theorem trans (h : Spared ws p s s') (h' : Spared ws p s' s'') (hb : s'.base = s.base) :
    Spared ws p s s'' := by
  intro way hway
  rcases h way hway with he | ⟨hn, hd, hon⟩
  · rcases h' way hway with he' | ⟨hn, hd, parts, hparts, htarget⟩
    · exact Or.inl (he'.trans he)
    · exact Or.inr ⟨he ▸ hn, hd, parts, hparts, target_congr hb _ ▸ htarget⟩
  · rcases h' way hway with he' | ⟨hn', -⟩
    · exact Or.inr ⟨hn, he'.trans hd, hon⟩
    · rw [hd] at hn'; cases hn'

theorem of_parent (h : Spared ws p.parent s s') : Spared ws p s s' := by
  intro way hway
  refine (h way hway).imp_right ?_
  rintro ⟨hn, hd, parts, hparts, htarget⟩
  exact ⟨hn, hd, parts, hparts.trans (List.dropLast_prefix _), htarget⟩

theorem mono {ws' : Way → Prop} (h : Spared ws p s s') (hws : ∀ way, ws way → ws' way) :
    Spared ws' p s s' :=
  fun way hway => h way (mt (hws way) hway)

end Spared

theorem makeDir_spared (h : s.makeDir p = .ok s') : Spared (fun _ => False) p s s' := by
  obtain ⟨way, hl, hn, rfl⟩ := makeDir_eq_ok h
  intro v _
  by_cases hv : v = way
  · subst hv
    -- in a store without a working directory nothing may come of it
    cases hg : (s.place v (.dir [] s.now)).top.get? v with
    | none => exact Or.inl (by rw [hn, Entry.look, hg]; rfl)
    | some e =>
      cases get?_place_self hg
      exact Or.inr ⟨hn, by rw [Entry.look, hg]; rfl, p.parts, List.prefix_rfl,
        (target_of_locate hl).symm⟩
  · exact Or.inl (look_place_of_ne (Entry.bare_dir _) (by simp [hn]) hv)

/-- Making directories adds those on the way of their path and spares the rest. -/
theorem makeDirs_spared (s : Store) (p : Path) :
    Spared (fun _ => False) p s (s.makeDirs p).2 := by
  -- the places on the way are those from the same working directory
  have hrel := makeDirsFrom_rel
    (R := fun p s s' => s'.base = s.base ∧ Spared (fun _ => False) p s s')
    (fun _ _ => ⟨rfl, .refl⟩) (fun _ _ _ h => ⟨(makeDir_kept h).base, makeDir_spared h⟩)
    (fun _ _ _ _ hup h => ⟨h.1.trans hup.1, hup.2.of_parent.trans h.2 hup.1⟩)
  exact (hrel _ s p).2

theorem write_spared {bytes : List UInt8} (h : s.write p bytes = .ok s') (q : Path) :
    Spared (s.target p = ·) q s s' := by
  obtain ⟨way, hl, hd, rfl⟩ := write_eq_ok h
  intro v hv
  rw [← target_of_locate hl] at hv
  exact Or.inl (look_place_of_ne (Entry.bare_file _ _) hd (Ne.symm hv))

/-- Making the directories above a path and writing to it spares the rest. -/
theorem makeDirs_write_spared {bytes : List UInt8}
    (hm : s.makeDirs p.parent = (.ok (), s')) (hw : s'.write p bytes = .ok s'') :
    Spared (s.target p = ·) p.parent s s'' := by
  have hmade := makeDirs_spared s p.parent
  have hgrows := makeDirs_grows (fun _ => False) s p.parent
  rw [hm] at hmade hgrows
  have hwritten := write_spared hw p.parent
  rw [hgrows.target_eq] at hwritten
  exact (hmade.mono fun _ hf => hf.elim).trans hwritten hgrows.fits.base

/-! ## What a path accepts -/

/-- A zero character in a path is met: in the directories above, or in the name if these can be
    made. -/
def MeetsNul (s : Store) (p : Path) : Prop :=
  hasNul p.parent = true ∨ hasNul p = true ∧ (s.makeDirs p.parent).1 = .ok ()

theorem Accepts.not_meetsNul (h : s.Accepts p) : ¬ s.MeetsNul p := by
  obtain ⟨s₁, -, way, hl, -⟩ := h
  have hn := (locate_eq_ok.1 hl).1
  simp [MeetsNul, hn, hasNul_parent hn]

theorem accepts_iff (bytes : List UInt8) : s.Accepts p ↔
    ∃ s₁ s₂, s.makeDirs p.parent = (.ok (), s₁) ∧ s₁.write p bytes = .ok s₂ := by
  constructor
  · rintro ⟨s₁, hm, way, hl, hd⟩
    exact ⟨s₁, _, hm, write_of_locate bytes hl hd⟩
  · rintro ⟨s₁, s₂, hm, hw⟩
    obtain ⟨way, hl, hd, -⟩ := write_eq_ok hw
    exact ⟨s₁, hm, way, hl, hd⟩

end Store

namespace Engine

variable {w : World} {p : Path} {t : Text}

/-! ## How writing ends -/

/-- How writing a text to a path ends, when, and what it leaves behind. -/
inductive Delivered (w : World) (p : Path) (t : Text) : Except Failure Unit × World → Prop
  | written {w' : World} : w.store.Accepts p → t.NoSurrogate → w'.store.Holds p t →
      w.store.Spared (w.store.target p = ·) p.parent w'.store → Delivered w p t (.ok (), w')
  | refused {cause : Failure} {w' : World} : ¬ w.store.Accepts p → ¬ w.store.MeetsNul p →
      w.store.Spared (fun _ => False) p.parent w'.store →
      Delivered w p t (.error (undelivered p cause), w')
  | nul {w' : World} : w.store.MeetsNul p →
      w.store.Spared (fun _ => False) p.parent w'.store → Delivered w p t (.error .nulInPath, w')
  | emptied {w' : World} : w.store.Accepts p → ¬ t.NoSurrogate → w'.store.read p = .ok [] →
      w.store.Spared (w.store.target p = ·) p.parent w'.store →
      Delivered w p t (.error .unencodable, w')

/-- A failure on the way to the file. -/
theorem delivered_of_failure {f : Failure} {w' : World} (hna : ¬ w.store.Accepts p)
    (hf : (f.isFile = true ∧ ¬ w.store.MeetsNul p) ∨ (f = .nulInPath ∧ w.store.MeetsNul p))
    (hs : w.store.Spared (fun _ => False) p.parent w'.store) :
    Delivered w p t (.error (deliveryFailure p f), w') := by
  rcases hf with ⟨hf, hn⟩ | ⟨rfl, hn⟩
  · rw [deliveryFailure, if_pos hf]
    exact .refused hna hn hs
  · exact .nul hn hs

theorem delivered_makeDirs_error {f : Failure} {s₁ : Store}
    (hm : w.store.makeDirs p.parent = (.error f, s₁)) :
    Delivered w p t (.error (deliveryFailure p f), { w with store := s₁ }) := by
  have hspared := Store.makeDirs_spared w.store p.parent
  rw [hm] at hspared
  refine delivered_of_failure ?_ ?_ hspared
  · rintro ⟨s₂, hm', -⟩
    rw [hm] at hm'
    cases hm'
  · rcases Store.makeDirs_cases w.store p.parent with hok | ⟨g, hg, hfile, hn⟩ | ⟨hg, hn⟩
    · rw [hm] at hok; cases hok
    · rw [hm] at hg; cases hg; exact Or.inl ⟨hfile, by simp [Store.MeetsNul, hn, hm]⟩
    · rw [hm] at hg; cases hg; exact Or.inr ⟨rfl, Or.inl hn⟩

theorem delivered_write_error {f : Failure} {s₁ : Store} {bytes : List UInt8}
    (hm : w.store.makeDirs p.parent = (.ok (), s₁)) (hw : s₁.write p bytes = .error f) :
    Delivered w p t (.error (deliveryFailure p f), { w with store := s₁ }) := by
  have hspared := Store.makeDirs_spared w.store p.parent
  rw [hm] at hspared
  refine delivered_of_failure ?_ ?_ hspared
  · rw [Store.accepts_iff bytes]
    rintro ⟨s₂, s₃, hm', hw'⟩
    rw [hm] at hm'
    cases hm'
    rw [hw] at hw'
    cases hw'
  · cases hn : Store.hasNul p with
    | true =>
      rw [Store.write_of_hasNul hn] at hw
      cases hw
      exact Or.inr ⟨rfl, Or.inr ⟨hn, by rw [hm]⟩⟩
    | false =>
      exact Or.inl ⟨Store.write_error_isFile hn hw,
        by simp [Store.MeetsNul, hn, Store.hasNul_parent hn]⟩

/-- **There is no other way for writing to end.** -/
theorem delivered_deliver (hw : w.store.Grounded) (p : Path) (t : Text) :
    Delivered w p t ((deliver p t).perform w) := by
  rw [perform_deliver]
  rcases hm : w.store.makeDirs p.parent with ⟨f | u, s₁⟩
  · exact delivered_makeDirs_error hm
  have hgrows := Store.makeDirs_grows (fun _ => False) w.store p.parent
  rw [hm] at hgrows
  have hstat {bytes : List UInt8} {s₂ : Store} (h : s₁.write p bytes = .ok s₂) :
      s₂.stat p = .ok (.file bytes s₁.now) := Store.stat_of_write (hgrows.grounded hw) h
  cases hcs : t.chars? with
  | some cs =>
    have ht : t.NoSurrogate := by
      rw [Text.eq_ofString_of_chars? hcs]
      exact Text.noSurrogate_ofString _
    cases hwrite : s₁.write p (Utf8.encode cs) with
    | error f => simpa only [hwrite] using delivered_write_error hm hwrite
    | ok s₂ =>
      simp only [hwrite]
      exact .written ((Store.accepts_iff _).2 ⟨s₁, s₂, hm, hwrite⟩) ht
        (Store.holds_of_stat hcs (hstat hwrite)) (Store.makeDirs_write_spared hm hwrite)
  | none =>
    -- the file is opened, and so emptied, before the text turns out to have no bytes
    have ht : ¬ t.NoSurrogate := by
      intro ht
      obtain ⟨str, rfl⟩ := Text.exists_ofString ht
      rw [Text.ofString, Text.chars?_map_scalar] at hcs
      cases hcs
    cases hwrite : s₁.write p [] with
    | error f => simpa only [hwrite] using delivered_write_error hm hwrite
    | ok s₂ =>
      simp only [hwrite]
      exact .emptied ((Store.accepts_iff _).2 ⟨s₁, s₂, hm, hwrite⟩) ht
        (by rw [Store.read, hstat hwrite]) (Store.makeDirs_write_spared hm hwrite)

/-- Either the path holds the text, and all else is as it was but for directories above the path; or
    the failure is one to write a file, and everything is as it was but for these. -/
def ExactOrHarmless (w : World) (p : Path) (t : Text) : Except Failure Unit × World → Prop
  | (.ok _, w') =>
    w'.store.Holds p t ∧ w.store.Spared (w.store.target p = ·) p.parent w'.store
  | (.error f, w') =>
    f.code? = some "AXE-G005" ∧ w.store.Spared (fun _ => False) p.parent w'.store

/-- **Writing a file is exact or harmless**, unless a zero character in the path is met, or the text
    has a surrogate and a file can be written. In the first case all is as it was but for
    directories above the path; in the second the file is left empty. -/
theorem deliver_exact_or_harmless {w : World} (hw : w.store.Grounded) (p : Path) (t : Text) :
    (ExactOrHarmless w p t ((deliver p t).perform w) ↔
      ¬ w.store.MeetsNul p ∧ (t.NoSurrogate ∨ ¬ w.store.Accepts p)) ∧
    ((∃ w', (deliver p t).perform w = (.ok (), w')) ↔ t.NoSurrogate ∧ w.store.Accepts p) ∧
    (w.store.MeetsNul p → ∃ w', (deliver p t).perform w = (.error .nulInPath, w') ∧
      w.store.Spared (fun _ => False) p.parent w'.store) ∧
    (¬ t.NoSurrogate → w.store.Accepts p →
      ∃ w', (deliver p t).perform w = (.error .unencodable, w') ∧ w'.store.read p = .ok [] ∧
        w.store.Spared (w.store.target p = ·) p.parent w'.store) := by
  have hcode (cause : Failure) : (undelivered p cause).code? = some "AXE-G005" :=
    congrArg some (by cbv : Area.code .generator 5 = "AXE-G005")
  have hend := delivered_deliver hw p t
  generalize (deliver p t).perform w = r at hend ⊢
  cases hend with
  | written ha ht hholds hspared =>
    simp [ExactOrHarmless, hholds, hspared, ha, ht, ha.not_meetsNul]
  | refused ha hn hspared => simp [ExactOrHarmless, hcode, hspared, ha, hn]
  | nul hn hspared =>
    have ha : ¬ w.store.Accepts p := fun ha => ha.not_meetsNul hn
    simp [ExactOrHarmless, Failure.code?, hspared, ha, hn]
  | emptied ha ht hread hspared =>
    simp [ExactOrHarmless, Failure.code?, hread, hspared, ha, ht, ha.not_meetsNul]

/-- Two files. -/
def drawer : World where
  store := ⟨.dir [("a", .file (Utf8.encodeString "old") 0), ("b", .file [] 0)] 0, [], 1⟩
  reported := []

/-- The text of an escape is written over a file: it is emptied, and the other file stays. -/
theorem deliver_exact_or_harmless_surrogate : ∃ t w',
    Contract.decodeEscape "\\uD800".toList = .ok t ∧
    (deliver ⟨.relative, ["a"]⟩ t).perform drawer = (.error .unencodable, w') ∧
    ¬ ExactOrHarmless drawer ⟨.relative, ["a"]⟩ t (.error .unencodable, w') ∧
    drawer.store.read ⟨.relative, ["a"]⟩ = .ok (Utf8.encodeString "old") ∧
    w'.store.read ⟨.relative, ["a"]⟩ = .ok [] ∧
    w'.store.top.look ["b"] = some (.file [] 0) := by
  have hdecode : Contract.decodeEscape "\\uD800".toList = .ok [.surrogate 0] := by decide +kernel
  have hmakes : drawer.store.makeDirs (Path.parent ⟨.relative, ["a"]⟩) =
      (.ok (), drawer.store) := by cbv
  have haccepts : drawer.store.Accepts ⟨.relative, ["a"]⟩ :=
    ⟨_, hmakes, ["a"], by cbv, by simp [drawer, Entry.look, Entry.get?, Entry.child?, Entry.find?,
      Entry.kind]⟩
  have ht : ¬ Text.NoSurrogate [.surrogate 0] := fun h => h _ (List.mem_singleton.2 rfl)
  obtain ⟨hiff, -, -, hemptied⟩ := deliver_exact_or_harmless (w := drawer) rfl
    ⟨.relative, ["a"]⟩ [.surrogate 0]
  obtain ⟨w', hr, hread, hspared⟩ := hemptied ht haccepts
  rw [hr] at hiff
  refine ⟨_, w', hdecode, hr, fun h => ?_, by cbv, hread, ?_⟩
  · exact (hiff.1 h).2.elim ht fun hna => hna haccepts
  · obtain hsame | ⟨hnone, -⟩ := hspared ["b"] (by decide)
    · rw [hsame]; rfl
    · cases hnone

end Engine

end Scaffold
