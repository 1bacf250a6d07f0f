/-
  Rendering is all or nothing, and writing stops at the first failure: `generate_fails`.

  * `perform_deliver` says what writing one file comes to.
  * After files were written one after the other (`Delivers`), the store has grown at their places
    only (`Delivers.grows`), the directories above them are there (`Delivers.dirs`), and each file
    whose place no later one has holds its text (`Delivers.holds`).
  * `write_error` says how far writing has got where it fails.
-/
import Scaffold.Proofs.BestEffort
import Scaffold.Proofs.Growth
import Scaffold.Proofs.Reports

namespace Scaffold

theorem Text.eq_ofString_of_chars? {t : Text} {cs : List Char} (h : t.chars? = some cs) :
    t = Text.ofString (String.ofList cs) := by
  rw [ofString, String.toList_ofList]
  exact eq_map_scalar_of_chars? h

namespace Store

variable {s s' : Store} {p : Path} {t : Text}

/-- A path leads to a file with a text. -/
def Holds (s : Store) (p : Path) (t : Text) : Prop :=
  ∃ str, t = Text.ofString str ∧ s.read p = .ok (Utf8.encodeString str)

theorem holds_of_stat {cs : List Char} {time : Int} (ht : t.chars? = some cs)
    (h : s.stat p = .ok (.file (Utf8.encode cs) time)) : s.Holds p t :=
  ⟨String.ofList cs, Text.eq_ofString_of_chars? ht, by
    simp only [read, h, Utf8.encodeString, String.toList_ofList]⟩

/-- A file that is not written to keeps its text. -/
theorem Grows.holds {ws : Way → Prop} (h : Grows ws s s') (hp : ¬ ws (s.target p))
    (ht : s.Holds p t) : s'.Holds p t := by
  obtain ⟨str, hstr, hread⟩ := ht
  obtain ⟨time, hs⟩ := stat_of_read hread
  exact ⟨str, hstr, by simp only [read, h.stat_file hp hs]⟩

end Store

/-- The code of a failure that has one. -/
def Failure.code? : Failure → Option String
  | coded e _ => some e.code
  | _ => none

namespace Engine

variable {p : Path} {t : Text} {w w' : World}

/-! ## One file -/

/-- The failure to write a file. -/
def undelivered (p : Path) (cause : Failure) : Failure :=
  .ofArea .generator 5 "Failed to write generated file" [("path", .str p.text)] (some cause)

/-- The failure of a file, where the cause is one of files. -/
def deliveryFailure (p : Path) (cause : Failure) : Failure :=
  if cause.isFile then undelivered p cause else cause

/-- A file is written after the directories above it were made; a text without UTF-8 leaves it
    empty. -/
theorem perform_deliver (p : Path) (t : Text) (w : World) :
    (deliver p t).perform w =
      match w.store.makeDirs p.parent with
      | (.error f, s₁) => (.error (deliveryFailure p f), { w with store := s₁ })
      | (.ok _, s₁) =>
        match t.chars? with
        | some cs =>
          match s₁.write p (Utf8.encode cs) with
          | .ok s₂ => (.ok (), ⟨s₂, ⟨.info, "Generated file.",
              [("path", .str p.text), ("bytes", .int (Utf8.encode cs).length)]⟩ :: w.reported⟩)
          | .error f => (.error (deliveryFailure p f), { w with store := s₁ })
        | none =>
          match s₁.write p [] with
          | .ok s₂ => (.error .unencodable, { w with store := s₂ })
          | .error f => (.error (deliveryFailure p f), { w with store := s₁ }) := by
  have herror (f : Failure) (w : World) :
      (if f.isFile then (throw (.ofArea .generator 5 "Failed to write generated file"
          [("path", .str p.text)] (some f)) : Effect Unit) else throw f).perform w =
        (.error (deliveryFailure p f), w) := by
    unfold deliveryFailure
    split <;> rfl
  simp only [deliver, writeText, Effect.perform_bind, Effect.perform_outcome,
    Effect.perform_makeDirs]
  rcases w.store.makeDirs p.parent with ⟨f | u, s₁⟩
  · exact herror f _
  · cases t.chars? with
    | some cs =>
      simp only [Effect.write, Effect.perform_bind, Effect.perform_update]
      cases s₁.write p (Utf8.encode cs) with
      | ok s₂ => rfl
      | error f => exact herror f _
    | none =>
      simp only [Effect.write, Effect.perform_bind, Effect.perform_update]
      cases s₁.write p [] with
      | ok s₂ => rfl
      | error f => exact herror f _

theorem deliver_ok (h : (deliver p t).perform w = (.ok (), w')) :
    ∃ s₁ cs, w.store.makeDirs p.parent = (.ok (), s₁) ∧ t.chars? = some cs ∧
      s₁.write p (Utf8.encode cs) = .ok w'.store := by
  rw [perform_deliver] at h
  split at h
  · cases h
  · next s₁ hm =>
    split at h
    · next cs hcs =>
      split at h
      · next hw => cases h; exact ⟨s₁, cs, hm, hcs, hw⟩
      · cases h
    · split at h <;> cases h

/-- Where a file could not be written because of files, no file is other than before. -/
theorem deliver_error {f : Failure} (h : (deliver p t).perform w = (.error f, w')) :
    (∃ cause, f = undelivered p cause ∧ w.store.Grows (fun _ => False) w'.store) ∨
      f = .nulInPath ∨ f = .unencodable := by
  have hgrows := Store.makeDirs_grows (fun _ => False) w.store p.parent
  have hfailure {g : Failure} (hg : g.isFile = true ∨ g = .nulInPath)
      (hw : w.store.Grows (fun _ => False) w'.store) :
      (∃ cause, deliveryFailure p g = undelivered p cause ∧
        w.store.Grows (fun _ => False) w'.store) ∨
      deliveryFailure p g = .nulInPath ∨ deliveryFailure p g = .unencodable := by
    rcases hg with hg | rfl
    · exact Or.inl ⟨g, by rw [deliveryFailure, if_pos hg], hw⟩
    · exact Or.inr (Or.inl rfl)
  have hwrite {s₁ : Store} {bytes : List UInt8} {g : Failure}
      (hw : s₁.write p bytes = .error g) : g.isFile = true ∨ g = .nulInPath := by
    cases hn : Store.hasNul p with
    | true => rw [Store.write_of_hasNul hn] at hw; cases hw; exact Or.inr rfl
    | false => exact Or.inl (Store.write_error_isFile hn hw)
  rw [perform_deliver] at h
  split at h
  · next g s₁ hm =>
    cases h
    rw [hm] at hgrows
    refine hfailure ?_ hgrows
    rcases Store.makeDirs_cases w.store p.parent with hok | ⟨g', hg, hfile, -⟩ | ⟨hg, -⟩
    · rw [hm] at hok; cases hok
    · rw [hm] at hg; cases hg; exact Or.inl hfile
    · rw [hm] at hg; cases hg; exact Or.inr rfl
  · next s₁ hm =>
    rw [hm] at hgrows
    split at h
    · split at h
      · cases h
      · next hw => cases h; exact hfailure (hwrite hw) hgrows
    · split at h
      · cases h; exact Or.inr (Or.inr rfl)
      · next hw => cases h; exact hfailure (hwrite hw) hgrows

end Engine

namespace Generator

open Engine

/-! ## All files -/

/-- The places that paths lead to in a store. -/
def placesOf (s : Store) (ps : List Path) (way : Way) : Prop :=
  ∃ p ∈ ps, s.target p = way

theorem deliver_grows {p : Path} {t : Text} {w w' : World}
    (h : (deliver p t).perform w = (.ok (), w')) :
    w.store.Grows (fun way => w.store.target p = way) w'.store := by
  obtain ⟨s₁, cs, hm, -, hw⟩ := deliver_ok h
  have hgrows := Store.makeDirs_grows (fun way => w.store.target p = way) w.store p.parent
  rw [hm] at hgrows
  exact hgrows.trans (Store.write_grows hw (hgrows.target_eq p).symm)

namespace Delivers

variable {w w' : World} {fs : List (Path × Text)}

/-- Only the files at the places of those that were written can be other than before. -/
theorem grows (h : Delivers w fs w') :
    w.store.Grows (placesOf w.store (fs.map Prod.fst)) w'.store := by
  induction h with
  | nil w => exact .refl
  | @cons w w₁ w₂ p t fs hd _ ih =>
    have hp := deliver_grows hd
    refine (hp.mono fun way hway => ⟨p, List.mem_cons_self .., hway⟩).trans
      (ih.mono fun way ⟨q, hq, hway⟩ => ⟨q, List.mem_cons_of_mem _ hq, ?_⟩)
    rw [← hp.target_eq]
    exact hway

/-- A file that was written holds its text, unless a later one was written to its place. -/
theorem holds (hs : w.store.Grounded) (h : Delivers w fs w') {before later : List (Path × Text)}
    {f : Path × Text} (hfs : fs = before ++ f :: later)
    (hlater : ∀ f' ∈ later, w.store.target f'.1 ≠ w.store.target f.1) :
    w'.store.Holds f.1 f.2 := by
  induction h generalizing before with
  | nil w => cases before <;> cases hfs
  | @cons w w₁ w₂ p t fs hd hrest ih =>
    have hp := deliver_grows hd
    cases before with
    | nil =>
      cases hfs
      obtain ⟨s₁, cs, hm, hcs, hw⟩ := deliver_ok hd
      have hgrows := Store.makeDirs_grows (fun _ => False) w.store p.parent
      rw [hm] at hgrows
      have hstat := Store.stat_of_write (hgrows.grounded hs) hw
      refine Store.holds_of_stat hcs (hrest.grows.stat_file ?_ hstat)
      rintro ⟨q, hq, hway⟩
      obtain ⟨f', hf', rfl⟩ := List.mem_map.1 hq
      rw [hp.target_eq, hp.target_eq] at hway
      exact hlater f' hf' hway
    | cons _ before =>
      cases hfs
      refine ih (hp.grounded hs) rfl fun f' hf' => ?_
      rw [hp.target_eq, hp.target_eq]
      exact hlater f' hf'

end Delivers

/-! ## Rendering and writing -/

/-- The failure to make the output directory. -/
def noOutputDir (p : Path) (cause : Failure) : Failure :=
  .ofArea .generator 5 "Failed to create output directory" [("path", .str p.text)] (some cause)

theorem perform_makeOutputDir (p : Path) (w : World) :
    (makeOutputDir p).perform w =
      match w.store.makeDirs p with
      | (.error f, s) => (.error (if f.isFile then noOutputDir p f else f), { w with store := s })
      | (.ok _, s) => (.ok (), { w with store := s }) := by
  simp only [makeOutputDir, Effect.perform_bind, Effect.perform_outcome, Effect.perform_makeDirs]
  rcases w.store.makeDirs p with ⟨f | u, s⟩
  · simp only []
    split <;> rfl
  · rfl

theorem makeOutputDir_grows (ws : Way → Prop) (p : Path) (w : World) :
    w.store.Grows ws ((makeOutputDir p).perform w).2.store := by
  have hgrows := Store.makeDirs_grows ws w.store p
  rw [perform_makeOutputDir]
  rcases hm : w.store.makeDirs p with ⟨f | u, s⟩ <;> rw [hm] at hgrows <;> exact hgrows

theorem perform_generate {g : Generator} {c : Config} {x : Context} (hg : g.stage = .contextBuilt)
    (hc : g.config = some c) (hx : g.context = some x) (w : World) :
    generate.perform g w =
      match Bench.renderAll ⟨g.press, x⟩ [] (jobs c x g.press.engine) with
      | (.error f, b) => (.error (f.guarded .generator "render"), g.on b, w)
      | (.ok fs, b) => write.perform (g.withFiles b fs) w := by
  simp only [generate, Step.perform_bind, perform_render hg hc hx]
  rcases Bench.renderAll ⟨g.press, x⟩ [] (jobs c x g.press.engine) with ⟨f | fs, b⟩ <;> rfl

/-- A failure to render has a code of its own. -/
theorem code?_of_failsFirst {b : Bench} {js : List Job} {f : Failure} (h : b.FailsFirst js f) :
    f.code? = some "AXE-G003" ∨ f.code? = some "AXE-G004" := by
  have h3 : Area.code .generator 3 = "AXE-G003" := by cbv
  have h4 : Area.code .generator 4 = "AXE-G004" := by cbv
  obtain ⟨_, j, _, -, -, hj⟩ := h
  rw [Bench.print] at hj
  rcases Press.render_error hj with rfl | ⟨cause, rfl⟩
  · exact Or.inl (congrArg some h3)
  · exact Or.inr (congrArg some h4)

theorem code?_guarded {f : Failure} {code name : String}
    (h : (f.guarded .generator name).code? = some code) (hne : code ≠ "AXE-G999") :
    f.code? = some code ∧ f.guarded .generator name = f := by
  have h999 : Area.code .generator 999 = "AXE-G999" := by cbv
  cases f with
  | coded e cause => exact ⟨h, rfl⟩
  | _ => exact absurd ((Option.some.inj h).symm.trans h999) hne

theorem makeOutputDir_error {p : Path} {w w' : World} {f : Failure}
    (h : (makeOutputDir p).perform w = (.error f, w')) :
    (∃ cause, f = noOutputDir p cause) ∨ f = .nulInPath := by
  rw [perform_makeOutputDir] at h
  split at h
  · next cause s₁ hm =>
    cases h
    rcases Store.makeDirs_cases w.store p with hok | ⟨g, hg, hfile, -⟩ | ⟨hg, -⟩
    · rw [hm] at hok; cases hok
    · rw [hm] at hg; cases hg; exact Or.inl ⟨cause, if_pos hfile⟩
    · rw [hm] at hg; cases hg; exact Or.inr rfl
  · cases h

/-- A write that fails because of files has made the output directory and written the files before
    the one it failed on, or could not make the directory. -/
theorem write_error {g g' : Generator} {c : Config} {w w' : World} {f : Failure}
    (hg : g.stage = .rendered) (hc : g.config = some c)
    (h : write.perform g w = (.error f, g', w')) (hcode : f.code? = some "AXE-G005") :
    ∃ before w₁ w₂, g' = g.reporting before ∧
      ((before = [] ∧ ∃ cause, f = noOutputDir c.outputDir cause) ∨
        ∃ p t later cause, g.rendered = before ++ (p, t) :: later ∧ f = undelivered p cause) ∧
      w.store.Grows (fun _ => False) w₁.store ∧ Delivers w₁ before w₂ ∧
      w₂.store.Grows (fun _ => False) w'.store := by
  have hdir := makeOutputDir_grows (fun _ => False) c.outputDir w
  rw [perform_write hg hc] at h
  rcases hm : (makeOutputDir c.outputDir).perform w with ⟨f' | u, w₁⟩ <;> rw [hm] at h hdir
  · cases h
    obtain ⟨hf, hguarded⟩ := code?_guarded hcode (by decide)
    refine ⟨[], w', w', by simp [reporting], Or.inl ⟨rfl, ?_⟩, hdir, .nil w', .refl⟩
    rcases makeOutputDir_error hm with hcause | rfl
    · rwa [hguarded]
    · cases hf
  · simp only [] at h
    rcases writeFiles_cases g.rendered g w₁ with
      ⟨w₂, -, hall⟩ | ⟨before, p, t, later, w₂, f', w₃, hfs, hb, hd, hpart⟩
    · rw [hall] at h; cases h
    · rw [hpart] at h
      cases h
      obtain ⟨hf, hguarded⟩ := code?_guarded hcode (by decide)
      rcases deliver_error hd with ⟨cause, rfl, hlast⟩ | rfl | rfl
      · exact ⟨before, w₁, w₂, rfl, Or.inr ⟨p, t, later, cause, hfs, hguarded⟩, hdir, hb, hlast⟩
      · cases hf
      · cases hf

/-- **Rendering is all or nothing, and writing stops at the first failure.** Where rendering fails,
    the world stays as it was, and so do the stage, the rendered and the reported files. Where
    writing fails because of files, it is the output directory that could not be made, or one of the
    rendered files: then those before it, and only those, are reported as written, each holds its
    text unless another goes to its place, and all other files are as they were. -/
theorem generate_fails {g : Generator} {c : Config} {x : Context} {w : World}
    (hg : g.stage = .contextBuilt) (hc : g.config = some c) (hx : g.context = some x)
    (hnone : g.writtenFiles = []) (hw : w.store.Grounded) :
    (∀ f, (render.perform g w).1 = .error f →
      ∃ b, generate.perform g w = (.error f, g.on b, w)) ∧
    (∀ f g' w', generate.perform g w = (.error f, g', w') → f.code? = some "AXE-G005" →
      ∃ fs before b, (render.perform g w).1 = .ok fs ∧
        g' = { g.on b with
          stage := .rendered, rendered := fs, writtenFiles := before.map Prod.fst } ∧
        ((before = [] ∧ ∃ cause, f = noOutputDir c.outputDir cause) ∨
          ∃ p t later cause, fs = before ++ (p, t) :: later ∧ f = undelivered p cause) ∧
        (∀ q ∈ before, (∀ q' ∈ before, q' ≠ q → w.store.target q'.1 ≠ w.store.target q.1) →
          w'.store.Holds q.1 q.2) ∧
        (∀ way bytes time, (∀ q ∈ before, w.store.target q.1 ≠ way) →
          (w'.store.top.get? way = some (.file bytes time) ↔
            w.store.top.get? way = some (.file bytes time)))) := by
  rw [perform_render hg hc hx, perform_generate hg hc hx]
  rcases hr : Bench.renderAll ⟨g.press, x⟩ [] (jobs c x g.press.engine) with ⟨f | fs, b⟩
  · refine ⟨fun f' hf' => ⟨b, by cases hf'; rfl⟩, fun f' g' w' h hcode => ?_⟩
    cases h
    have hf := (code?_guarded hcode (by decide)).1
    have hfirst := Bench.renderAll_error_iff.1 (congrArg Prod.fst hr)
    rcases code?_of_failsFirst hfirst with h | h <;> rw [hf] at h <;> simp at h
  · refine ⟨fun f hf => (by cases hf), fun f g' w' h hcode => ?_⟩
    have hc : (g.withFiles b fs).config = some c := hc
    obtain ⟨before, w₁, w₂, rfl, hcause, hdir, hb, hlast⟩ :=
      write_error (stage_withFiles g b fs) hc h hcode
    have htarget := hdir.target_eq
    refine ⟨fs, before, b, rfl, by simp [reporting, withFiles, on, hnone], hcause,
      fun q hq hother => ?_, fun way bytes time hway => ?_⟩
    · have hnodup : (before.map Prod.fst).Nodup := by
        have hfs : (fs.map Prod.fst).Nodup :=
          ((IsExpansion.nil _).renderAll (congrArg Prod.fst hr)).nodup
        rcases hcause with ⟨rfl, -⟩ | ⟨p, t, later, cause, hsplit, -⟩
        · exact List.nodup_nil
        · rw [show fs = before ++ (p, t) :: later from hsplit, List.map_append] at hfs
          exact hfs.of_append_left
      obtain ⟨pre, post, hsplit⟩ := List.append_of_mem hq
      refine hlast.holds not_false (hb.holds (hdir.grounded hw) hsplit fun q' hq' => ?_)
      rw [htarget, htarget]
      refine hother q' (by rw [hsplit]; simp [hq']) ?_
      rintro rfl
      rw [hsplit, List.map_append, List.map_cons] at hnodup
      exact (List.nodup_cons.1 hnodup.of_append_right).1 (List.mem_map_of_mem hq')
    · have hgrows := hb.grows.trans (hlast.mono fun _ hf => hf.elim)
      have hplace : ¬ placesOf w₁.store (before.map Prod.fst) way := by
        rintro ⟨p, hp, rfl⟩
        obtain ⟨q, hq, rfl⟩ := List.mem_map.1 hp
        exact hway q hq (htarget q.1).symm
      rw [← Entry.look_file_iff, ← Entry.look_file_iff, hgrows.file_iff hplace,
        hdir.file_iff not_false]

/-- A world with a directory where the second of the two files goes. -/
def blockedWorld : World := petWorld namingTemplate [("o", .dir [("b", .dir [] 1)] 1)]

/-- The generator that is about to render them. -/
def readyGenerator : Generator :=
  after (fresh (evenLuck 0)) (readySteps plainConfig namingTemplate none)

theorem readyGenerator_eq : readyGenerator =
    ready (evenLuck 0) plainConfig namingTemplate (Context.assemble plainConfig petSpec) :=
  after_readySteps_plain _ _

theorem generate_blocked :
    let after := generate.perform readyGenerator blockedWorld
    after.1.mapError Failure.code? = .error (some "AXE-G005") ∧
      after.2.1.rendered.map Prod.snd = [Text.ofString "Get", Text.ofString "Get"] ∧
      after.2.1.writtenFiles = [⟨.relative, ["o", "a"]⟩] := by
  rw [readyGenerator_eq]
  decide +kernel

/-- The first file is written, the second one cannot be, and the schema stays as it was. -/
theorem generate_fails_blocked : ∃ f g' w',
    generate.perform readyGenerator blockedWorld = (.error f, g', w') ∧
      f.code? = some "AXE-G005" ∧ g'.writtenFiles = [⟨.relative, ["o", "a"]⟩] ∧
      w'.store.Holds ⟨.relative, ["o", "a"]⟩ (Text.ofString "Get") ∧
      w'.store.top.get? ["s"] = some (.file (Utf8.encodeString petSource) 1) := by
  have hstage : readyGenerator.stage = .contextBuilt := by rw [readyGenerator_eq]; rfl
  have hconfig : readyGenerator.config = some plainConfig := by rw [readyGenerator_eq]; rfl
  have hcontext : readyGenerator.context = some (Context.assemble plainConfig petSpec) := by
    rw [readyGenerator_eq]; rfl
  have hnone : readyGenerator.writtenFiles = [] := by rw [readyGenerator_eq]; rfl
  obtain ⟨herror, htexts, hwritten⟩ := generate_blocked
  rcases h : generate.perform readyGenerator blockedWorld with ⟨f | ps, g', w'⟩ <;>
    rw [h] at herror htexts hwritten
  swap
  · cases herror
  have hcode : f.code? = some "AXE-G005" := Except.error.inj herror
  obtain ⟨fs, before, b, -, rfl, hcause, hholds, hsame⟩ :=
    (generate_fails hstage hconfig hcontext hnone (w := blockedWorld) rfl).2 f g' w' h hcode
  obtain ⟨q, rfl, hq⟩ := List.map_eq_singleton_iff.1 hwritten
  obtain ⟨path, text⟩ := q
  obtain rfl : path = ⟨.relative, ["o", "a"]⟩ := hq
  obtain rfl : text = Text.ofString "Get" := by
    rcases hcause with ⟨hnil, -⟩ | ⟨p, t, later, cause, rfl, -⟩
    · cases hnil
    · exact (List.cons.inj htexts).1
  have hheld := hholds _ (List.mem_singleton.2 rfl) (by simp)
  refine ⟨f, _, w', rfl, hcode, rfl, hheld, (hsame _ _ _ ?_).2 rfl⟩
  simp [Store.target, Store.start, blockedWorld, petWorld]

end Generator

end Scaffold
