/-
  How a store grows.

  A run only adds to a store: it makes directories where there is nothing, and it writes files.
  `Grows ws s s'` says that a store has become another one by such steps, where files were written
  at places in `ws` only. Everything about what a run leaves alone is derived from this:

  * directories stay directories and files stay files (`Grows.fits`), and away from `ws` the files
    are the same (`Grows.file_iff`), those of a directory one by one (`Grows.files`);
  * `makeDirs_grows` and `write_grows`: making directories and writing a file are such steps.

  `target` is where a path leads, whatever stands on the way; a path that can be followed leads
  there (`target_of_locate`). `makeDirs_ok` is what directories that were made are good for, and
  `makeDirs_of_dirAt` says that a directory could have been made before, if it is there now.
-/
import Mathlib.Data.List.Induction
import Scaffold.Proofs.Store

namespace Scaffold

/-! ## Entries -/

namespace Entry

variable {e new : Entry} {now time : Int} {name : String} {es : List (String × Entry)}

theorem look_append (e : Entry) (a b : Way) : e.look (a ++ b) = (e.get? a).bind (·.look b) := by
  induction a generalizing e with
  | nil => rfl
  | cons n a ih =>
    simp only [List.cons_append, look, get?]
    cases e.child? n with
    | none => rfl
    | some c => exact ih c

/-- What has something below it is a directory. -/
theorem look_of_below {a b : Way} {k : Kind} (hb : b ≠ []) (h : e.look (a ++ b) = some k) :
    e.look a = some .dir := by
  rw [look_append] at h
  obtain ⟨c, hc, hk⟩ := Option.bind_eq_some_iff.1 h
  cases c with
  | file bytes t =>
    cases b with
    | nil => exact absurd rfl hb
    | cons n b => rw [bare_file bytes t n b] at hk; cases hk
  | dir es t => rw [look, hc]; rfl

theorem look_dropLast {way : Way} {k : Kind} (h : e.look way = some k) :
    way = [] ∨ e.look way.dropLast = some .dir := by
  cases way using List.reverseRecOn with
  | nil => exact Or.inl rfl
  | append_singleton way n =>
    rw [List.dropLast_concat]
    exact Or.inr (look_of_below (List.cons_ne_nil n []) h)

theorem put_of_find? {c : Entry} (rest : Way) (h : find? name es = some c) :
    put now new (name :: rest) (dir es time) = dir (insert name (put now new rest c) es) time := by
  cases rest <;> simp [put, h]

theorem get?_dir_insert (rest : Way) (c : Entry) :
    (dir (insert name c es) time).get? (name :: rest) = c.get? rest := by
  simp only [get?, child?, find?_insert_self]

theorem look_file_iff {way : Way} {b : List UInt8} {t : Int} :
    e.look way = some (.file b t) ↔ e.get? way = some (file b t) := by
  constructor
  · intro h
    obtain ⟨d, hd, hk⟩ := Option.map_eq_some_iff.1 h
    rw [hd, eq_file_of_kind hk]
  · intro h
    rw [look, h]
    rfl

/-- An entry can be put at the end of a way out of a directory. -/
theorem get?_put_of_dropLast {way : Way} (h : way = [] ∨ e.look way.dropLast = some .dir) :
    (put now new way e).get? way = some new := by
  induction way generalizing e with
  | nil => rfl
  | cons name rest ih =>
    have h : e.look (name :: rest).dropLast = some .dir := h.resolve_left (List.cons_ne_nil _ _)
    cases e with
    | file bytes t => cases rest <;> cases h
    | dir es t =>
      cases hf : find? name es with
      | none =>
        cases rest with
        | nil => simp [put, hf, get?, child?, find?_insert_self]
        | cons n rest => simp [List.dropLast, look_dir, hf] at h
      | some c =>
        rw [put_of_find? rest hf, get?_dir_insert]
        refine ih ?_
        cases rest with
        | nil => exact Or.inl rfl
        | cons n rest => exact Or.inr (by simpa [List.dropLast, look_dir, hf] using h)

/-! ### The files of a directory -/

/-- The files among entries. -/
def filesOf (es : List (String × Entry)) : List (String × Entry) := es.filter fun e => e.2.isFile

theorem filesOf_cons (x : String × Entry) (es : List (String × Entry)) :
    filesOf (x :: es) = if x.2.isFile then x :: filesOf es else filesOf es := by
  rw [filesOf, List.filter_cons, filesOf]

/-- A directory more does not change the files. -/
theorem filesOf_insert_none (hnew : new.isFile = false) (h : find? name es = none) :
    filesOf (insert name new es) = filesOf es := by
  induction es with
  | nil => simp [insert, filesOf, hnew]
  | cons x es ih =>
    by_cases hx : x.1 = name
    · simp [find?, hx] at h
    · simp only [insert, beq_iff_eq, hx, if_false, filesOf_cons]
      rw [ih (by simpa [find?, hx] using h)]

/-- A directory in the place of a directory does not change the files. -/
theorem filesOf_insert_some {c : Entry} (h : find? name es = some c)
    (hnew : new = c ∨ (new.isFile = false ∧ c.isFile = false)) :
    filesOf (insert name new es) = filesOf es := by
  induction es with
  | nil => cases h
  | cons x es ih =>
    obtain ⟨n, d⟩ := x
    by_cases hx : n = name
    · obtain rfl : d = c := by simpa [find?, hx] using h
      rcases hnew with rfl | ⟨hn, hd⟩
      · simp [insert, hx]
      · simp [insert, hx, filesOf_cons, hn, hd]
    · simp only [insert, beq_iff_eq, hx, if_false, filesOf_cons]
      rw [ih (by simpa [find?, hx] using h)]

/-- Putting an entry below another one keeps what that one is. -/
theorem put_below (way : Way) (n : String) (e : Entry) :
    put now new (n :: way) e = e ∨
      ((put now new (n :: way) e).isFile = false ∧ e.isFile = false) := by
  cases e with
  | file bytes t => exact Or.inl rfl
  | dir es t =>
    refine Or.inr ⟨?_, rfl⟩
    cases hf : find? n es with
    | none => cases way <;> simp [put, hf, isFile]
    | some c => rw [put_of_find? way hf]; rfl

/-- The files of a directory are the same after a directory was put where there was nothing, and
    after anything was put elsewhere. -/
theorem files_put {v way : Way} {es : List (String × Entry)} {t : Int}
    (h : e.get? v = some (dir es t))
    (hput : (e.look way = none ∧ new.isFile = false) ∨
      (e.look way ≠ some .dir ∧ ¬ v <+: way)) :
    ∃ es' t', (put now new way e).get? v = some (dir es' t') ∧ filesOf es' = filesOf es := by
  have hne : e.look way ≠ some .dir := by
    rcases hput with ⟨hn, -⟩ | ⟨hd, -⟩
    · rw [hn]; simp
    · exact hd
  induction v generalizing e way with
  | nil =>
    -- something is put into the directory itself
    cases h
    cases way with
    | nil => exact absurd rfl hne
    | cons name rest =>
      obtain ⟨hnone, hnew⟩ := hput.resolve_right fun h => h.2 List.nil_prefix
      cases hf : find? name es with
      | none =>
        cases rest with
        | nil => exact ⟨_, _, by simp only [put, hf]; rfl, filesOf_insert_none hnew hf⟩
        | cons n rest => exact ⟨es, t, by simp [put, hf, get?], rfl⟩
      | some c =>
        rw [put_of_find? rest hf]
        refine ⟨_, t, rfl, filesOf_insert_some hf ?_⟩
        cases rest with
        | nil => rw [look_dir, hf] at hnone; cases hnone
        | cons n rest => exact put_below rest n c
  | cons n v ih =>
    cases e with
    | file bytes t => cases h
    | dir es₀ t₀ =>
      cases hf : find? n es₀ with
      | none => simp [get?, child?, hf] at h
      | some c =>
        have hc : c.get? v = some (dir es t) := by simpa [get?, child?, hf] using h
        cases way with
        | nil => exact absurd rfl hne
        | cons name rest =>
          by_cases hn : name = n
          · subst hn
            rw [put_of_find? rest hf, get?_dir_insert]
            simp only [look_dir, hf, Option.bind_some, List.cons_prefix_cons, true_and] at hput hne
            exact ih hc hput hne
          · refine ⟨es, t, ?_, rfl⟩
            cases hfn : find? name es₀ with
            | none =>
              cases rest with
              | nil => simpa [put, hfn, get?, child?, find?_insert_of_ne (Ne.symm hn)] using h
              | cons m rest => simpa [put, hfn] using h
            | some d =>
              rw [put_of_find? rest hfn]
              simpa [get?, child?, find?_insert_of_ne (Ne.symm hn)] using h

end Entry

namespace Store

variable {s s' s'' : Store} {p q : Path} {ws : Way → Prop}

/-! ## Where a path leads -/

/-- Where a path leads when everything on the way is a directory. -/
def target (s : Store) (p : Path) : Way :=
  p.parts.foldl (fun way part => if part == ".." then way.dropLast else way ++ [part]) (s.start p)

theorem target_congr (h : s'.base = s.base) (p : Path) : s'.target p = s.target p := by
  simp only [target, start, h]

theorem walk_eq_foldl {top : Entry} {way r : Way} {ps : List String}
    (h : walk top way ps = .ok r) :
    r = ps.foldl (fun way part => if part == ".." then way.dropLast else way ++ [part]) way := by
  induction ps generalizing way with
  | nil => cases h; rfl
  | cons part ps ih =>
    unfold walk at h
    rw [List.foldl_cons]
    split at h
    · cases h
    · cases h
    · split at h
      · next hp => rw [if_pos hp]; exact ih h
      · next hp =>
        split at h
        · cases h
        · rw [if_neg hp]; exact ih h

/-- A path that can be followed leads to its target. -/
theorem target_of_locate {way : Way} (h : s.locate p = .ok way) : way = s.target p :=
  walk_eq_foldl (locate_eq_ok.1 h).2.2

/-- The working directory is a directory. -/
def Grounded (s : Store) : Prop := s.top.look s.base = some .dir

/-- What is at the end of a path that can be followed is the top, or in a directory. -/
theorem locate_dropLast (hs : s.Grounded) {way : Way} (h : s.locate p = .ok way) :
    way = [] ∨ s.top.look way.dropLast = some .dir := by
  have hwalk (ps : List String) (a : Way) (ha : a = [] ∨ s.top.look a.dropLast = some .dir)
      (hr : walk s.top a ps = .ok way) : way = [] ∨ s.top.look way.dropLast = some .dir := by
    induction ps generalizing a with
    | nil => cases hr; exact ha
    | cons part ps ih =>
      unfold walk at hr
      split at hr
      · cases hr
      · cases hr
      · next hd =>
        have hd : s.top.look a = some .dir := by rw [Entry.look, hd]; rfl
        split at hr
        · refine ih _ ?_ hr
          rcases Entry.look_dropLast hd with rfl | hup
          · exact Or.inl rfl
          · exact Entry.look_dropLast hup
        · split at hr
          · cases hr
          · exact ih _ (Or.inr (by rw [List.dropLast_concat]; exact hd)) hr
  refine hwalk p.parts _ ?_ (locate_eq_ok.1 h).2.2
  unfold start
  split
  · exact Entry.look_dropLast hs
  · exact Or.inl rfl

theorem look_place_self {way : Way} {new : Entry}
    (h : way = [] ∨ s.top.look way.dropLast = some .dir) :
    (s.place way new).top.get? way = some new :=
  Entry.get?_put_of_dropLast h

/-! ## Growing -/

/-- A store has become another one: directories were made where there was nothing, files were
    written at places in `ws`, and time went on. -/
inductive Grows (ws : Way → Prop) (s : Store) : Store → Prop
  | refl : Grows ws s s
  | dir {s' : Store} {way : Way} : Grows ws s s' → s'.top.look way = none →
      Grows ws s (s'.place way (.dir [] s'.now))
  | file {s' : Store} {way : Way} {bytes : List UInt8} : Grows ws s s' →
      s'.top.look way ≠ some .dir → ws way → Grows ws s (s'.place way (.file bytes s'.now))
  | later {s' : Store} (now : Int) : Grows ws s s' → Grows ws s { s' with now := now }

/-- Where a store has a directory, another one has a directory, and where it has a file, the other
    one has a file. -/
structure Fits (s s' : Store) : Prop where
  base : s'.base = s.base
  dir : ∀ way, s.top.look way = some .dir → s'.top.look way = some .dir
  file : ∀ way b t, s.top.look way = some (.file b t) →
    ∃ b' t', s'.top.look way = some (.file b' t')

theorem Fits.refl (s : Store) : Fits s s := ⟨rfl, fun _ h => h, fun _ b t h => ⟨b, t, h⟩⟩

theorem Fits.trans (h : Fits s s') (h' : Fits s' s'') : Fits s s'' :=
  ⟨h'.base.trans h.base, fun way hd => h'.dir way (h.dir way hd), fun way b t hf => by
    obtain ⟨b', t', hf'⟩ := h.file way b t hf
    exact h'.file way b' t' hf'⟩

namespace Grows

theorem trans (h : Grows ws s s') (h' : Grows ws s' s'') : Grows ws s s'' := by
  induction h' with
  | refl => exact h
  | dir _ hn ih => exact ih.dir hn
  | file _ hd hw ih => exact ih.file hd hw
  | later now _ ih => exact ih.later now

theorem mono {ws' : Way → Prop} (h : Grows ws s s') (hws : ∀ way, ws way → ws' way) :
    Grows ws' s s' := by
  induction h with
  | refl => exact .refl
  | dir _ hn ih => exact ih.dir hn
  | file _ hd hw ih => exact ih.file hd (hws _ hw)
  | later now _ ih => exact ih.later now

/-- Directories stay directories and files stay files. -/
theorem fits (h : Grows ws s s') : Fits s s' := by
  induction h with
  | refl => exact .refl s
  | @dir s' way _ hn ih =>
    have hsame {w : Way} {k : Kind} (hk : s'.top.look w = some k) :
        (s'.place way (.dir [] s'.now)).top.look w = some k := by
      rw [look_place_of_ne (Entry.bare_dir _) (by simp [hn])]
      · exact hk
      · rintro rfl; rw [hn] at hk; cases hk
    exact ih.trans ⟨rfl, fun w hd => hsame hd, fun w b t hf => ⟨b, t, hsame hf⟩⟩
  | @file s' way bytes _ hd _ ih =>
    have hsame {w : Way} (hw : w ≠ way) := look_place_of_ne (Entry.bare_file bytes s'.now) hd hw
    refine ih.trans ⟨rfl, fun w hw => ?_, fun w b t hf => ?_⟩
    · rw [hsame]
      · exact hw
      · rintro rfl; exact hd hw
    · by_cases hw : w = way
      · subst hw
        -- a file is written over a file
        have hput : (s'.place w (.file bytes s'.now)).top.get? w = some (.file bytes s'.now) :=
          look_place_self (Entry.look_dropLast hf)
        exact ⟨bytes, s'.now, by rw [Entry.look, hput]; rfl⟩
      · exact ⟨b, t, by rw [hsame hw]; exact hf⟩
  | later now _ ih => exact ih.trans ⟨rfl, fun _ h => h, fun _ b t h => ⟨b, t, h⟩⟩

theorem target_eq (h : Grows ws s s') (p : Path) : s'.target p = s.target p :=
  target_congr h.fits.base p

theorem grounded (h : Grows ws s s') (hs : s.Grounded) : s'.Grounded := by
  rw [Grounded, h.fits.base]
  exact h.fits.dir _ hs

/-- Where no file was written, the files are the same. -/
theorem file_iff (h : Grows ws s s') {way : Way} (hw : ¬ ws way) (b : List UInt8) (t : Int) :
    s'.top.look way = some (.file b t) ↔ s.top.look way = some (.file b t) := by
  induction h with
  | refl => rfl
  | @dir s' w _ hn ih =>
    by_cases hww : way = w
    · subst hww
      rw [← ih, hn]
      refine iff_of_false (fun hf => ?_) (by simp)
      cases get?_place_self (Entry.look_file_iff.1 hf)
    · rw [look_place_of_ne (Entry.bare_dir _) (by simp [hn]) hww]
      exact ih
  | @file s' w bytes _ hd hws ih =>
    have hww : way ≠ w := by rintro rfl; exact hw hws
    rw [look_place_of_ne (Entry.bare_file _ _) hd hww]
    exact ih
  | later now _ ih => exact ih

/-- The files of a directory that none was written below are the same. -/
theorem files (h : Grows ws s s') {v : Way} (hw : ∀ way, ws way → ¬ v <+: way)
    {es : List (String × Entry)} {t : Int} (hv : s.top.get? v = some (.dir es t)) :
    ∃ es' t', s'.top.get? v = some (.dir es' t') ∧ Entry.filesOf es' = Entry.filesOf es := by
  have hput {s₁ : Store} {way : Way} {new : Entry}
      (ih : ∃ es₁ t₁, s₁.top.get? v = some (.dir es₁ t₁) ∧ Entry.filesOf es₁ = Entry.filesOf es)
      (hnew : (s₁.top.look way = none ∧ new.isFile = false) ∨
        (s₁.top.look way ≠ some .dir ∧ ¬ v <+: way)) :
      ∃ es₂ t₂, (s₁.place way new).top.get? v = some (.dir es₂ t₂) ∧
        Entry.filesOf es₂ = Entry.filesOf es := by
    obtain ⟨es₁, t₁, hv₁, hf₁⟩ := ih
    obtain ⟨es₂, t₂, hv₂, hf₂⟩ := Entry.files_put hv₁ hnew
    exact ⟨es₂, t₂, hv₂, hf₂.trans hf₁⟩
  induction h with
  | refl => exact ⟨es, t, hv, rfl⟩
  | dir _ hn ih => exact hput ih (Or.inl ⟨hn, rfl⟩)
  | file _ hd hws ih => exact hput ih (Or.inr ⟨hd, hw _ hws⟩)
  | later now _ ih => exact ih

end Grows

/-! ## Paths in a store that has grown -/

theorem Fits.locate (h : Fits s s') {way : Way} (hl : s.locate p = .ok way) :
    s'.locate p = .ok way :=
  locate_mono h.base h.dir hl

theorem dirAt_iff : s.DirAt p ↔ ∃ way, s.locate p = .ok way ∧ s.top.look way = some .dir := by
  constructor
  · rintro ⟨es, t, hs⟩
    obtain ⟨way, hl, hg⟩ := stat_eq_ok.1 hs
    exact ⟨way, hl, by rw [Entry.look, hg]; rfl⟩
  · rintro ⟨way, hl, hd⟩
    obtain ⟨es, t, hg⟩ := get?_of_look_dir hd
    exact ⟨es, t, stat_eq_ok.2 ⟨way, hl, hg⟩⟩

theorem stat_file_iff {b : List UInt8} {t : Int} : s.stat p = .ok (.file b t) ↔
    ∃ way, s.locate p = .ok way ∧ s.top.look way = some (.file b t) := by
  constructor
  · intro hs
    obtain ⟨way, hl, hg⟩ := stat_eq_ok.1 hs
    exact ⟨way, hl, by rw [Entry.look, hg]; rfl⟩
  · rintro ⟨way, hl, hf⟩
    exact stat_eq_ok.2 ⟨way, hl, Entry.look_file_iff.1 hf⟩

/-- A file that is not written stays. -/
theorem Grows.stat_file (h : Grows ws s s') (hp : ¬ ws (s.target p)) {b : List UInt8} {t : Int}
    (hs : s.stat p = .ok (.file b t)) : s'.stat p = .ok (.file b t) := by
  obtain ⟨way, hl, hf⟩ := stat_file_iff.1 hs
  refine stat_file_iff.2 ⟨way, h.fits.locate hl, (h.file_iff ?_ b t).2 hf⟩
  rwa [target_of_locate hl]

/-- A path that can be followed later could be followed before, or something was not there yet. -/
theorem Fits.locate_before (h : Fits s s') {way : Way} (hl : s'.locate p = .ok way) :
    s.locate p = .ok way ∨ s.locate p = .error (.file .notFound p.text) := by
  have hwalk (ps : List String) (a r : Way) (hr : walk s'.top a ps = .ok r) :
      walk s.top a ps = .ok r ∨ walk s.top a ps = .error .notFound := by
    induction ps generalizing a with
    | nil => exact Or.inl hr
    | cons part ps ih =>
      unfold walk at hr ⊢
      cases hg : s.top.get? a with
      | none => exact Or.inr rfl
      | some e =>
        cases e with
        | file b t =>
          -- a file on the way is still there
          obtain ⟨b', t', hf⟩ := h.file a b t (by rw [Entry.look, hg]; rfl)
          rw [Entry.look_file_iff.1 hf] at hr
          cases hr
        | dir es t =>
          obtain ⟨es', t', hg'⟩ := get?_of_look_dir (h.dir a (by rw [Entry.look, hg]; rfl))
          rw [hg'] at hr
          simp only [] at hr ⊢
          split
          · next hp => rw [if_pos hp] at hr; exact ih _ hr
          · next hp =>
            rw [if_neg hp] at hr
            split
            · next hlong => rw [if_pos hlong] at hr; cases hr
            · next hlong => rw [if_neg hlong] at hr; exact ih _ hr
  obtain ⟨hn, ht, hw⟩ := locate_eq_ok.1 hl
  have hstart : s'.start p = s.start p := by simp only [start, h.base]
  rw [hstart] at hw
  rcases hwalk _ _ _ hw with hw | hw
  · exact Or.inl (locate_eq_ok.2 ⟨hn, ht, hw⟩)
  · simp [Store.locate, hn, Nat.not_lt.2 ht, hw]

/-- Below a directory nothing but the last part can be missing. -/
theorem locate_of_parent (h : s.DirAt p.parent) (path : String) :
    s.locate p ≠ .error (.file .notFound path) := by
  intro hl
  obtain ⟨way, hup, hd⟩ := dirAt_iff.1 h
  obtain ⟨-, -, hw⟩ := locate_eq_ok.1 hup
  have hnot : walk s.top (s.start p) p.parts ≠ .error .notFound := by
    cases hp : p.parts using List.reverseRecOn with
    | nil => simp [walk]
    | append_singleton up last =>
      have hparts : p.parent.parts = up := by rw [Path.parent, hp, List.dropLast_concat]
      have hstart : s.start p.parent = s.start p := rfl
      rw [hparts, hstart] at hw
      obtain ⟨es, t, hg⟩ := get?_of_look_dir hd
      rw [walk_append, hw]
      simp only [walk, hg]
      (repeat' split) <;> simp
  unfold locate at hl
  split at hl
  · cases hl
  · split at hl
    · cases hl
    · split at hl
      · cases hl
      · next hw' =>
        cases hl
        exact hnot hw'

/-! ## Making directories -/

theorem makeDir_grows (ws : Way → Prop) (h : s.makeDir p = .ok s') : Grows ws s s' := by
  obtain ⟨way, -, hn, rfl⟩ := makeDir_eq_ok h
  exact Grows.refl.dir hn

theorem ensureDir_grows (ws : Way → Prop) (s : Store) (p : Path) :
    Grows ws s (s.ensureDir p).2 :=
  ensureDir_rel .refl fun _ => makeDir_grows ws

theorem makeDirsFrom_grows (ws : Way → Prop) (above : Nat) (s : Store) (p : Path) :
    Grows ws s (makeDirsFrom above s p).2 :=
  makeDirsFrom_rel (R := fun _ => Grows ws) (fun _ _ => .refl) (fun _ _ _ => makeDir_grows ws)
    (fun _ _ _ _ => .trans) above s p

theorem makeDirs_grows (ws : Way → Prop) (s : Store) (p : Path) :
    Grows ws s (s.makeDirs p).2 :=
  makeDirsFrom_grows ws _ s p

theorem isDir_iff : s.isDir p = .ok true ↔ s.DirAt p := by
  unfold isDir holds DirAt
  cases hs : s.stat p with
  | ok e => cases e <;> simp [Entry.isDir, Entry.isFile]
  | error f =>
    refine iff_of_false ?_ (by simp)
    split <;> simp_all

theorem ensureDir_ok (hs : s.Grounded) (h : s.ensureDir p = (.ok (), s')) : s'.DirAt p := by
  have hgrows := (ensureDir_grows (fun _ => False) s p).fits
  rw [h] at hgrows
  unfold ensureDir at h
  split at h
  · next hm =>
    cases h
    obtain ⟨way, hl, hn, rfl⟩ := makeDir_eq_ok hm
    refine dirAt_iff.2 ⟨way, hgrows.locate hl, ?_⟩
    rw [Entry.look, look_place_self (locate_dropLast hs hl)]
    rfl
  · cases h
  · next f _ _ =>
    injection h with h₁ h₂
    subst h₂
    cases f with
    | file problem path =>
      simp only [accept] at h₁
      split at h₁
      · next hd => exact isDir_iff.1 hd
      · cases h₁
      · cases h₁
    | _ => cases h₁

/-- Directories that were made are there. -/
theorem makeDirs_ok (hs : s.Grounded) (h : s.makeDirs p = (.ok (), s')) : s'.DirAt p := by
  unfold makeDirs at h
  generalize p.parts.length = above at h
  cases above with
  | zero => exact ensureDir_ok hs h
  | succ above =>
    unfold makeDirsFrom at h
    split at h
    · have hp := makeDirsFrom_grows (fun _ => False) above s p.parent
      split at h
      · cases h
      · next hup => rw [hup] at hp; exact ensureDir_ok (hp.grounded hs) h
    · exact ensureDir_ok hs h

/-- Where there is a directory later, one can be made, unless the directories above are missing. -/
theorem ensureDir_of_dirAt (h : Fits s s') (hd : s'.DirAt p) :
    (∃ s₁, s.ensureDir p = (.ok (), s₁) ∧ Fits s₁ s') ∨
      s.locate p = .error (.file .notFound p.text) := by
  obtain ⟨way, hl', hk'⟩ := dirAt_iff.1 hd
  rcases h.locate_before hl' with hl | hl
  · left
    cases hg : s.top.get? way with
    | none =>
      have hn : s.top.look way = none := by rw [Entry.look, hg]; rfl
      refine ⟨s.place way (.dir [] s.now), by simp [ensureDir, makeDir, hl, hg], h.base, ?_, ?_⟩
      · intro a ha
        by_cases hw : a = way
        · rw [hw]; exact hk'
        · rw [look_place_of_ne (Entry.bare_dir _) (by simp [hn]) hw] at ha
          exact h.dir a ha
      · intro a b t ha
        by_cases hw : a = way
        · subst hw
          cases get?_place_self (Entry.look_file_iff.1 ha)
        · rw [look_place_of_ne (Entry.bare_dir _) (by simp [hn]) hw] at ha
          exact h.file a b t ha
    | some e =>
      cases e with
      | file b t =>
        obtain ⟨b', t', hf⟩ := h.file way b t (by rw [Entry.look, hg]; rfl)
        rw [hk'] at hf
        cases hf
      | dir es t =>
        refine ⟨s, ?_, h⟩
        have hdir : s.isDir p = .ok true := isDir_iff.2 ⟨es, t, stat_eq_ok.2 ⟨way, hl, hg⟩⟩
        simp [ensureDir, makeDir, hl, hg, accept, hdir]
  · exact Or.inr hl

/-- **A directory that is there later can be made before.** -/
theorem makeDirs_of_dirAt (hs : s.Grounded) (h : Fits s s') (hd : s'.DirAt p) :
    ∃ s₁, s.makeDirs p = (.ok (), s₁) ∧ Fits s₁ s' := by
  have hfrom (above : Nat) (p : Path) (hp : p.parts.length ≤ above) (hd : s'.DirAt p) :
      ∃ s₁, makeDirsFrom above s p = (.ok (), s₁) ∧ Fits s₁ s' ∧ s₁.DirAt p := by
    induction above generalizing p with
    | zero =>
      rcases ensureDir_of_dirAt h hd with ⟨s₁, he, hf⟩ | hl
      · exact ⟨s₁, he, hf, ensureDir_ok hs he⟩
      · have hparts : p.parts = [] := List.length_eq_zero_iff.1 (Nat.le_zero.1 hp)
        obtain ⟨way, hl', -⟩ := dirAt_iff.1 hd
        obtain ⟨hn, ht, -⟩ := locate_eq_ok.1 hl'
        simp [locate, hn, Nat.not_lt.2 ht, hparts, walk] at hl
    | succ above ih =>
      rcases ensureDir_of_dirAt h hd with ⟨s₁, he, hf⟩ | hl
      · exact ⟨s₁, by simp only [makeDirsFrom, he], hf, ensureDir_ok hs he⟩
      · have he : s.ensureDir p = (.error (.file .notFound p.text), s) := by
          simp [ensureDir, makeDir, hl]
        have hparts : p.parts ≠ [] := by
          intro hparts
          rw [locate, hparts] at hl
          (repeat' split at hl) <;> simp_all [walk]
        have hup : s'.DirAt p.parent := by
          obtain ⟨es, t, hstat⟩ := hd
          exact parent_dirAt hparts hstat
        obtain ⟨s₁, hm, hf, hdp⟩ := ih p.parent
          (by rw [Path.parent, List.length_dropLast]; omega) hup
        have hgrows := makeDirsFrom_grows (fun _ => False) above s p.parent
        rw [hm] at hgrows
        rcases ensureDir_of_dirAt hf hd with ⟨s₂, he₂, hf₂⟩ | hl₂
        · refine ⟨s₂, by simp only [makeDirsFrom, he, hm, he₂], hf₂, ?_⟩
          exact ensureDir_ok (hgrows.grounded hs) he₂
        · exact absurd hl₂ (locate_of_parent hdp _)
  obtain ⟨s₁, hm, hf, -⟩ := hfrom _ p (Nat.le_refl _) hd
  exact ⟨s₁, hm, hf⟩

/-! ## Writing a file -/

theorem write_grows {bytes : List UInt8} (h : s.write p bytes = .ok s') (hp : ws (s.target p)) :
    Grows ws s s' := by
  obtain ⟨way, hl, hd, rfl⟩ := write_eq_ok h
  exact Grows.refl.file hd (target_of_locate hl ▸ hp)

/-- A file that was written is there. -/
theorem stat_of_write {bytes : List UInt8} (hs : s.Grounded) (h : s.write p bytes = .ok s') :
    s'.stat p = .ok (.file bytes s.now) := by
  have hgrows : Grows (fun _ => True) s s' := write_grows h trivial
  obtain ⟨way, hl, -, rfl⟩ := write_eq_ok h
  exact stat_eq_ok.2 ⟨way, hgrows.fits.locate hl, look_place_self (locate_dropLast hs hl)⟩

/-- A file that can be written later can be written before, if the directories above are there. -/
theorem write_before (bytes : List UInt8) {bytes' : List UInt8} {s₁ : Store} (h : Fits s s')
    (hd : s.DirAt p.parent) (hw : s'.write p bytes' = .ok s₁) :
    ∃ s₂, s.write p bytes = .ok s₂ := by
  obtain ⟨way, hl', hd', -⟩ := write_eq_ok hw
  rcases h.locate_before hl' with hl | hl
  · refine ⟨s.place way (.file bytes s.now), ?_⟩
    unfold write writeAt
    rw [hl]
    simp only []
    split
    · next hg => exact absurd (h.dir way (by rw [Entry.look, hg]; rfl)) hd'
    · rfl
  · exact absurd hl (locate_of_parent hd _)

end Store

end Scaffold
