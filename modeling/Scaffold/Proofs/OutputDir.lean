/-
  Whether the output directory of an accepted configuration can be made.

  * `Clear s p`: nothing keeps a path from being a directory. The condition looks at the store as it
    is, at each place that the parts of the path lead to, and it is exact (`makeDirs_ok_iff`).
  * `Nearest s p q`: `q` is the path at or above `p` that leads to something and is nearest to it.
    `nearestExisting_cases` says what the search for it ends with.

  A configuration is accepted when the nearest path leads to a directory. The directory can be made
  then, unless `..` leads from what is not there yet back to a file, or a name cannot be taken:
  `accept_outputDir`.
-/
import Mathlib
import Scaffold.Proofs.Writing

namespace Scaffold

namespace Path

theorem eq_of {p q : Path} (hroot : q.root = p.root) (hparts : q.parts = p.parts) : q = p := by
  cases p
  cases q
  cases hroot
  cases hparts
  rfl

theorem prefix_cases {p : Path} {parts : List String} (hp : p.parts ≠ [])
    (h : parts <+: p.parts) : parts = p.parts ∨ parts <+: p.parent.parts := by
  rw [← List.dropLast_concat_getLast hp, List.prefix_concat_iff] at h
  rwa [List.dropLast_concat_getLast hp] at h

theorem length_parent {p : Path} (hp : p.parts ≠ []) :
    p.parts.length = p.parent.parts.length + 1 := by
  have hpos : 0 < p.parts.length := List.length_pos_iff.2 hp
  rw [Path.parent, List.length_dropLast]
  omega

/-- Induction on a path, from its parent to it. -/
theorem induct_parent {motive : Path → Prop} (nil : ∀ root, motive ⟨root, []⟩)
    (step : ∀ p : Path, p.parts ≠ [] → motive p.parent → motive p) (p : Path) : motive p := by
  induction hn : p.parts.length generalizing p with
  | zero =>
    obtain ⟨root, parts⟩ := p
    obtain rfl : parts = [] := List.length_eq_zero_iff.1 hn
    exact nil root
  | succ n ih =>
    have hne : p.parts ≠ [] := List.ne_nil_of_length_pos (by omega)
    exact step p hne (ih p.parent (by rw [length_parent hne] at hn; omega))

/-- What holds of a path and passes to its parent holds of the paths above it. -/
theorem of_above {P : Path → Prop} (hparent : ∀ p : Path, p.parts ≠ [] → P p → P p.parent)
    {p : Path} {parts : List String} (h : parts <+: p.parts) (hp : P p) : P ⟨p.root, parts⟩ := by
  induction p using induct_parent with
  | nil root => rwa [List.prefix_nil.1 h]
  | step p hne ih =>
    rcases prefix_cases hne h with rfl | habove
    · exact hp
    · exact ih habove (hparent p hne hp)

end Path

namespace Store

variable {s s' : Store} {p q : Path}

/-! ## What keeps a path from being a directory -/

/-- Where parts lead from a way when everything on it is a directory. -/
def follow (way : Way) (parts : List String) : Way :=
  parts.foldl (fun way part => if part == ".." then way.dropLast else way ++ [part]) way

theorem follow_cons (way : Way) (part : String) (parts : List String) :
    follow way (part :: parts) =
      follow (if part == ".." then way.dropLast else way ++ [part]) parts := rfl

theorem target_eq_follow (s : Store) (root : Root) (parts : List String) :
    s.target ⟨root, parts⟩ = follow (s.start ⟨root, parts⟩) parts := rfl

/-- Nothing keeps a path from being a directory: it can be written down, its names can be taken, and
    no file is where its parts lead. -/
structure Clear (s : Store) (p : Path) : Prop where
  noNul : hasNul p = false
  size : p.text.utf8ByteSize ≤ maxPath
  names : ∀ part ∈ p.parts, part.utf8ByteSize ≤ maxName
  noFile : ∀ way, s.OnWay p way → ∀ b t, s.top.look way ≠ some (.file b t)

/-- Why parts cannot be followed: something is missing, or is a file, or a name is too long. -/
theorem walk_error {top : Entry} {way : Way} {ps : List String} {problem : FileProblem}
    (h : walk top way ps = .error problem) : problem = .notFound ∨
      (∃ qs b t, qs <+: ps ∧ top.look (follow way qs) = some (.file b t)) ∨
      ∃ part ∈ ps, maxName < part.utf8ByteSize := by
  induction ps generalizing way with
  | nil => cases h
  | cons part ps ih =>
    have hlater {way' : Way}
        (hway : way' = if part == ".." then way.dropLast else way ++ [part])
        (h : walk top way' ps = .error problem) : problem = .notFound ∨
          (∃ qs b t, qs <+: part :: ps ∧ top.look (follow way qs) = some (.file b t)) ∨
          ∃ name ∈ part :: ps, maxName < name.utf8ByteSize := by
      rcases ih h with hp | ⟨qs, b, t, hqs, hfile⟩ | ⟨name, hname, hlong⟩
      · exact Or.inl hp
      · refine Or.inr (Or.inl ⟨part :: qs, b, t, List.cons_prefix_cons.2 ⟨rfl, hqs⟩, ?_⟩)
        rw [follow_cons, ← hway]
        exact hfile
      · exact Or.inr (Or.inr ⟨name, List.mem_cons_of_mem part hname, hlong⟩)
    unfold walk at h
    split at h
    · cases h; exact Or.inl rfl
    · next b t hg =>
      refine Or.inr (Or.inl ⟨[], b, t, List.nil_prefix, ?_⟩)
      rw [follow, List.foldl_nil, Entry.look, hg]
      rfl
    · split at h
      · next hup => exact hlater (by rw [if_pos hup]) h
      · next hup =>
        split at h
        · next hlong => exact Or.inr (Or.inr ⟨part, List.mem_cons_self, hlong⟩)
        · exact hlater (by rw [if_neg hup]) h

namespace Clear

theorem locate (h : s.Clear p) :
    (∃ way, s.locate p = .ok way) ∨ s.locate p = .error (.file .notFound p.text) := by
  unfold Store.locate
  rw [if_neg (by simp [h.noNul]), if_neg (Nat.not_lt.2 h.size)]
  cases hw : walk s.top (s.start p) p.parts with
  | ok way => exact Or.inl ⟨way, rfl⟩
  | error problem =>
    rcases walk_error hw with rfl | ⟨qs, b, t, hqs, hfile⟩ | ⟨part, hpart, hlong⟩
    · exact Or.inr rfl
    · exact absurd hfile (h.noFile _ ⟨qs, hqs, rfl⟩ b t)
    · exact absurd (h.names part hpart) (Nat.not_le.2 hlong)

theorem parent (h : s.Clear p) : s.Clear p.parent := by
  by_cases hp : p.parts = []
  · rwa [parent_of_nil hp]
  · refine ⟨hasNul_parent h.noNul, utf8ByteSize_parent_le hp h.size,
      fun part hpart => h.names part (List.dropLast_subset _ hpart), ?_⟩
    rintro way ⟨parts, hparts, rfl⟩
    exact h.noFile _ ⟨parts, hparts.trans (List.dropLast_prefix _), rfl⟩

/-- Directories that are made neither help nor hinder. -/
theorem grows_iff (hg : Grows (fun _ => False) s s') : s'.Clear p ↔ s.Clear p := by
  have hway (way : Way) : s'.OnWay p way ↔ s.OnWay p way := by
    simp only [OnWay, hg.target_eq]
  constructor
  · rintro ⟨hn, hs, hp, hf⟩
    refine ⟨hn, hs, hp, fun way hon b t => ?_⟩
    rw [Ne, ← hg.file_iff not_false]
    exact hf way ((hway way).2 hon) b t
  · rintro ⟨hn, hs, hp, hf⟩
    refine ⟨hn, hs, hp, fun way hon b t => ?_⟩
    rw [Ne, hg.file_iff not_false]
    exact hf way ((hway way).1 hon) b t

theorem ensureDir (h : s.Clear p) :
    (∃ s₁, s.ensureDir p = (.ok (), s₁)) ∨ s.locate p = .error (.file .notFound p.text) := by
  refine h.locate.imp_left ?_
  rintro ⟨way, hl⟩
  cases hg : s.top.get? way with
  | none => exact ⟨_, by simp only [Store.ensureDir, makeDir, hl, hg]; rfl⟩
  | some e =>
    cases e with
    | file b t =>
      refine absurd (Entry.look_file_iff.2 hg) (h.noFile way ?_ b t)
      exact ⟨p.parts, List.prefix_rfl, (target_of_locate hl).symm⟩
    | dir es t =>
      have hdir : s.isDir p = .ok true := isDir_iff.2 ⟨es, t, stat_eq_ok.2 ⟨way, hl, hg⟩⟩
      exact ⟨s, by simp [Store.ensureDir, makeDir, hl, hg, accept, hdir]⟩

/-- A path that nothing keeps from being a directory can be made one. -/
theorem makeDirsFrom (hs : s.Grounded) {above : Nat} (hp : p.parts.length ≤ above)
    (h : s.Clear p) : ∃ s₁, makeDirsFrom above s p = (.ok (), s₁) ∧ s₁.DirAt p := by
  induction above generalizing p with
  | zero =>
    rcases h.ensureDir with ⟨s₁, he⟩ | hl
    · exact ⟨s₁, he, ensureDir_ok hs he⟩
    · have hparts : p.parts = [] := List.length_eq_zero_iff.1 (Nat.le_zero.1 hp)
      simp [Store.locate, h.noNul, Nat.not_lt.2 h.size, hparts, walk] at hl
  | succ above ih =>
    rcases h.ensureDir with ⟨s₁, he⟩ | hl
    · exact ⟨s₁, by simp only [Store.makeDirsFrom, he], ensureDir_ok hs he⟩
    · have he : s.ensureDir p = (.error (.file .notFound p.text), s) := by
        simp [Store.ensureDir, makeDir, hl]
      -- the directories above are made first; they are not in the way
      have hup : p.parent.parts.length ≤ above := by
        rw [Path.parent, List.length_dropLast]
        omega
      obtain ⟨s₁, hm, hdir⟩ := ih hup h.parent
      have hg := makeDirsFrom_grows (fun _ => False) above s p.parent
      rw [hm] at hg
      rcases ((grows_iff hg).2 h).ensureDir with ⟨s₂, he₂⟩ | hl₂
      · refine ⟨s₂, ?_, ensureDir_ok (hg.grounded hs) he₂⟩
        simp only [Store.makeDirsFrom, he, hm, he₂]
      · exact absurd hl₂ (locate_of_parent hdir _)

end Clear

/-- Where parts were followed to a directory, everything on the way is one. -/
theorem look_follow {top : Entry} {way r : Way} {ps qs : List String} (hqs : qs <+: ps)
    (h : walk top way ps = .ok r) (hr : top.look r = some .dir) :
    top.look (follow way qs) = some .dir := by
  obtain ⟨rest, rfl⟩ := hqs
  rw [walk_append] at h
  split at h
  · next mid hm =>
    have hmid : mid = follow way qs := walk_eq_foldl hm
    rw [← hmid]
    cases rest with
    | nil => cases h; exact hr
    | cons part rest =>
      unfold walk at h
      split at h
      · cases h
      · cases h
      · next es t hg => rw [Entry.look, hg]; rfl
  · cases h

theorem names_of_walk {top : Entry} {way r : Way} {ps : List String}
    (h : walk top way ps = .ok r) : ∀ part ∈ ps, part.utf8ByteSize ≤ maxName := by
  induction ps generalizing way with
  | nil => simp
  | cons part ps ih =>
    unfold walk at h
    split at h
    · cases h
    · cases h
    · split at h
      · next hup =>
        refine List.forall_mem_cons.2 ⟨?_, ih h⟩
        rw [beq_iff_eq.1 hup]
        decide
      · split at h
        · cases h
        · next hlong => exact List.forall_mem_cons.2 ⟨Nat.not_lt.1 hlong, ih h⟩

theorem DirAt.clear (h : s.DirAt p) : s.Clear p := by
  obtain ⟨way, hl, hd⟩ := dirAt_iff.1 h
  obtain ⟨hn, hs, hw⟩ := locate_eq_ok.1 hl
  refine ⟨hn, hs, names_of_walk hw, ?_⟩
  rintro _ ⟨parts, hparts, rfl⟩ b t hfile
  have hdir : s.top.look (s.target ⟨p.root, parts⟩) = some .dir := look_follow hparts hw hd
  rw [hdir] at hfile
  cases hfile

/-- **A directory can be made exactly if nothing keeps its path from being one.** -/
theorem makeDirs_ok_iff (hs : s.Grounded) :
    (∃ s', s.makeDirs p = (.ok (), s')) ↔ s.Clear p := by
  constructor
  · rintro ⟨s', hm⟩
    have hg := makeDirs_grows (fun _ => False) s p
    rw [hm] at hg
    exact (Clear.grows_iff hg).1 (makeDirs_ok hs hm).clear
  · intro h
    obtain ⟨s₁, hm, -⟩ := h.makeDirsFrom hs (Nat.le_refl _)
    exact ⟨s₁, hm⟩

/-! ## The nearest path that leads to something -/

/-- The path at or above another one that leads to something and is nearest to it. -/
structure Nearest (s : Store) (p q : Path) : Prop where
  root : q.root = p.root
  above : q.parts <+: p.parts
  found : ∃ e, s.stat q = .ok e
  below : ∀ parts, parts <+: p.parts → q.parts.length < parts.length →
    ∀ e, s.stat ⟨p.root, parts⟩ ≠ .ok e

/-- A path without parts leads to a directory. -/
theorem dirAt_nil (hs : s.Grounded) (root : Root) : s.DirAt ⟨root, []⟩ := by
  have hdir : s.top.look (s.start ⟨root, []⟩) = some .dir := by
    unfold start
    split
    · exact hs
    · -- the topmost directory is above the working directory
      have htop : s.top.look ([] ++ s.base) = some .dir := hs
      cases hb : s.base with
      | nil => rwa [hb] at htop
      | cons n rest => exact Entry.look_of_below (by simp [hb]) htop
  refine dirAt_iff.2 ⟨_, locate_eq_ok.2 ⟨rfl, ?_, rfl⟩, hdir⟩
  cases root <;> decide

theorem contains_eq_true : s.contains p = .ok true ↔ ∃ e, s.stat p = .ok e := by
  unfold contains holds
  cases s.stat p with
  | ok e => simp
  | error f => split <;> simp_all

/-- What a path leads to can be told, unless a name or the path is too long. -/
theorem holds_eq_error {test : Entry → Bool} {f : Failure} : s.holds test p = .error f ↔
    ∃ path, f = .file .nameTooLong path ∧ s.stat p = .error (.file .nameTooLong path) := by
  unfold holds
  cases s.stat p with
  | ok e => simp
  | error g => split <;> simp_all [eq_comm]

/-- What is above a path that leads to something leads to something. -/
theorem stat_above {parts : List String} (h : parts <+: p.parts) (hp : ∃ e, s.stat p = .ok e) :
    ∃ e, s.stat ⟨p.root, parts⟩ = .ok e := by
  refine Path.of_above (P := fun p => ∃ e, s.stat p = .ok e) ?_ h hp
  rintro p hne ⟨e, he⟩
  obtain ⟨es, t, hup⟩ := parent_dirAt hne he
  exact ⟨_, hup⟩

theorem size_above {parts : List String} (h : parts <+: p.parts)
    (hp : p.text.utf8ByteSize ≤ maxPath) :
    (Path.text ⟨p.root, parts⟩).utf8ByteSize ≤ maxPath :=
  Path.of_above (P := fun p => p.text.utf8ByteSize ≤ maxPath)
    (fun _ hne => utf8ByteSize_parent_le hne) h hp

theorem hasNul_above {parts : List String} (h : parts <+: p.parts) (hp : hasNul p = false) :
    hasNul ⟨p.root, parts⟩ = false :=
  Path.of_above (P := fun p => hasNul p = false) (fun _ _ => hasNul_parent) h hp

namespace Nearest

theorem self {e : Entry} (h : s.stat p = .ok e) : s.Nearest p p :=
  ⟨rfl, List.prefix_rfl, ⟨e, h⟩, fun _ hparts hlt => absurd hparts.length_le (Nat.not_le.2 hlt)⟩

theorem eq_self (h : s.Nearest p q) {e : Entry} (he : s.stat p = .ok e) : q = p := by
  refine Path.eq_of h.root (h.above.eq_of_length_le ?_)
  by_contra hlt
  exact h.below p.parts List.prefix_rfl (Nat.not_le.1 hlt) e he

theorem eq_of_nil (h : s.Nearest p q) (hp : p.parts = []) : q = p :=
  Path.eq_of h.root (by rw [hp]; exact List.prefix_nil.1 (hp ▸ h.above))

/-- Where a path leads nowhere, the nearest one is above it. -/
theorem parent_iff (hp : p.parts ≠ []) (he : ∀ e, s.stat p ≠ .ok e) :
    s.Nearest p.parent q ↔ s.Nearest p q := by
  constructor
  · intro h
    refine ⟨h.root, h.above.trans (List.dropLast_prefix _), h.found, fun parts hparts hlt => ?_⟩
    rcases Path.prefix_cases hp hparts with rfl | hparts
    · exact he
    · exact h.below parts hparts hlt
  · intro h
    refine ⟨h.root, ?_, h.found, fun parts hparts =>
      h.below parts (hparts.trans (List.dropLast_prefix _))⟩
    rcases Path.prefix_cases hp h.above with hq | hq
    · obtain ⟨e, hfound⟩ := h.found
      rw [Path.eq_of h.root hq] at hfound
      exact absurd hfound (he e)
    · exact hq

end Nearest

theorem exists_nearest (hs : s.Grounded) (p : Path) : ∃ q, s.Nearest p q := by
  induction p using Path.induct_parent with
  | nil root =>
    obtain ⟨es, t, hstat⟩ := dirAt_nil hs root
    exact ⟨_, .self hstat⟩
  | step p hne ih =>
    by_cases he : ∃ e, s.stat p = .ok e
    · obtain ⟨e, he⟩ := he
      exact ⟨p, .self he⟩
    · obtain ⟨q, hq⟩ := ih
      exact ⟨q, (Nearest.parent_iff hne (by simpa using he)).1 hq⟩

/-- A path at or above another one has a name that is too long, or is too long itself. -/
def TooLong (s : Store) (p : Path) : Prop :=
  ∃ parts path, parts <+: p.parts ∧ s.stat ⟨p.root, parts⟩ = .error (.file .nameTooLong path)

theorem not_tooLong_of_stat {e : Entry} (h : s.stat p = .ok e) : ¬ s.TooLong p := by
  rintro ⟨parts, path, hparts, hlong⟩
  obtain ⟨e', he'⟩ := stat_above hparts ⟨e, h⟩
  rw [he'] at hlong
  cases hlong

theorem tooLong_parent_iff (hp : p.parts ≠ [])
    (h : ∀ path, s.stat p ≠ .error (.file .nameTooLong path)) :
    s.TooLong p.parent ↔ s.TooLong p := by
  constructor
  · rintro ⟨parts, path, hparts, hlong⟩
    exact ⟨parts, path, hparts.trans (List.dropLast_prefix _), hlong⟩
  · rintro ⟨parts, path, hparts, hlong⟩
    rcases Path.prefix_cases hp hparts with rfl | hparts
    · exact absurd hlong (h path)
    · exact ⟨parts, path, hparts, hlong⟩

/-- A path without a zero character, at or above another one, is too long to be written. -/
def Overlong (p : Path) : Prop :=
  ∃ parts, parts <+: p.parts ∧ hasNul ⟨p.root, parts⟩ = false ∧
    maxPath < (Path.text ⟨p.root, parts⟩).utf8ByteSize

theorem stat_overlong (hn : hasNul p = false) (hp : maxPath < p.text.utf8ByteSize) :
    s.stat p = .error (.file .nameTooLong p.text) := by
  simp [stat, locate, hn, hp]

theorem Overlong.tooLong (h : Overlong p) : s.TooLong p := by
  obtain ⟨parts, hparts, hn, hsize⟩ := h
  exact ⟨parts, _, hparts, stat_overlong hn hsize⟩

/-- A file has nothing below it. -/
theorem stat_below_file {b : List UInt8} {t : Int} {part : String} {rest : List String}
    (hq : s.stat q = .ok (.file b t)) (hn : hasNul ⟨q.root, q.parts ++ part :: rest⟩ = false)
    (hsize : (Path.text ⟨q.root, q.parts ++ part :: rest⟩).utf8ByteSize ≤ maxPath) :
    s.stat ⟨q.root, q.parts ++ part :: rest⟩ =
      .error (.file .notDirectory (Path.text ⟨q.root, q.parts ++ part :: rest⟩)) := by
  obtain ⟨way, hl, hg⟩ := stat_eq_ok.1 hq
  obtain ⟨-, -, hw⟩ := locate_eq_ok.1 hl
  have hstart : s.start ⟨q.root, q.parts ++ part :: rest⟩ = s.start q := rfl
  simp [stat, locate, hn, Nat.not_lt.2 hsize, hstart, walk_append, hw, walk, hg]

/-- Below a file no name is too long, only a path may be. -/
theorem Nearest.tooLong_iff (hq : s.Nearest p q) (hfile : ¬ s.DirAt q) :
    s.TooLong p ↔ Overlong p := by
  refine ⟨?_, Overlong.tooLong⟩
  rintro ⟨parts, path, hparts, hlong⟩
  have hn : hasNul ⟨p.root, parts⟩ = false := by
    by_contra hn
    rw [stat_of_hasNul (by simpa using hn)] at hlong
    cases hlong
  refine ⟨parts, hparts, hn, Nat.not_le.1 fun hsize => ?_⟩
  obtain ⟨e, he⟩ := hq.found
  rw [← hq.root] at hn hlong hsize
  rcases List.prefix_or_prefix_of_prefix hparts hq.above with hup | ⟨rest, rfl⟩
  · obtain ⟨e', he'⟩ := stat_above hup ⟨e, he⟩
    rw [he'] at hlong
    cases hlong
  · cases rest with
    | nil =>
      rw [List.append_nil] at hlong
      rw [show s.stat q = _ from hlong] at he
      cases he
    | cons part rest =>
      cases e with
      | dir es t => exact hfile ⟨es, t, he⟩
      | file b t =>
        rw [stat_below_file he hn hsize] at hlong
        cases hlong

theorem follow_append (way : Way) (ps qs : List String) :
    follow way (ps ++ qs) = follow (follow way ps) qs :=
  List.foldl_append

/-- Parts that do not lead back up lead down. -/
theorem follow_down (way : Way) {parts : List String} (h : ".." ∉ parts) :
    follow way parts = way ++ parts := by
  induction parts generalizing way with
  | nil => simp [follow]
  | cons part parts ih =>
    rw [List.mem_cons, not_or] at h
    rw [follow_cons, if_neg (by simpa using Ne.symm h.1), ih _ h.2, List.append_assoc,
      List.singleton_append]

theorem locate_child {way : Way} {part : String} (hl : s.locate q = .ok way)
    (hd : s.top.look way = some .dir) (hup : part ≠ "..") (hlen : part.utf8ByteSize ≤ maxName)
    (hn : hasNul ⟨q.root, q.parts ++ [part]⟩ = false)
    (hsize : (Path.text ⟨q.root, q.parts ++ [part]⟩).utf8ByteSize ≤ maxPath) :
    s.locate ⟨q.root, q.parts ++ [part]⟩ = .ok (way ++ [part]) := by
  obtain ⟨-, -, hw⟩ := locate_eq_ok.1 hl
  obtain ⟨es, t, hg⟩ := get?_of_look_dir hd
  have hstart : s.start ⟨q.root, q.parts ++ [part]⟩ = s.start q := rfl
  refine locate_eq_ok.2 ⟨hn, hsize, ?_⟩
  rw [hstart, walk_append, hw]
  simp [walk, hg, hup, Nat.not_lt.2 hlen]

/-- Below the nearest directory nothing is in the way, if no part leads back up. -/
theorem Nearest.clear (hq : s.Nearest p q) (hdir : s.DirAt q) (hn : hasNul p = false)
    (hsize : p.text.utf8ByteSize ≤ maxPath)
    (hnames : ∀ part ∈ p.parts, part.utf8ByteSize ≤ maxName)
    (hdown : ".." ∉ p.parts.drop q.parts.length) : s.Clear p := by
  refine ⟨hn, hsize, hnames, ?_⟩
  rintro _ ⟨parts, hparts, rfl⟩ b t hfile
  have habove (hup : parts <+: q.parts) : False :=
    hdir.clear.noFile _ ⟨parts, hup, rfl⟩ b t (by rwa [hq.root])
  rcases List.prefix_or_prefix_of_prefix hparts hq.above with hup | ⟨rest, rfl⟩
  · exact habove hup
  cases rest with
  | nil => exact habove (by simp)
  | cons part rest =>
    obtain ⟨tail, htail⟩ := hparts
    have hpart : ".." ∉ part :: rest := by
      rw [← htail, List.append_assoc, List.drop_left, List.mem_append, not_or] at hdown
      exact hdown.1
    obtain ⟨way, hl, hd⟩ := dirAt_iff.1 hdir
    have hchild : q.parts ++ [part] <+: p.parts := ⟨rest ++ tail, by simp [← htail]⟩
    -- the first part below the directory leads to nothing, so there is nothing behind it
    have hnone : s.top.get? (way ++ [part]) = none := by
      have hnot := hq.below _ hchild (by simp)
      rw [← hq.root] at hnot
      have hlc := locate_child hl hd (fun h => hpart (by simp [h]))
        (hnames part (hchild.subset (by simp))) (by rw [hq.root]; exact hasNul_above hchild hn)
        (by rw [hq.root]; exact size_above hchild hsize)
      refine Option.eq_none_iff_forall_ne_some.2 fun e he => hnot e ?_
      exact stat_eq_ok.2 ⟨_, hlc, he⟩
    have hway : s.target ⟨p.root, q.parts ++ part :: rest⟩ = way ++ [part] ++ rest := by
      have hfollow : way = follow (s.start q) q.parts := target_of_locate hl
      have hstart : s.start ⟨p.root, q.parts ++ part :: rest⟩ = s.start q := by
        rw [← hq.root]; rfl
      rw [target_eq_follow, hstart, follow_append, ← hfollow, follow_down _ hpart]
      simp
    rw [hway, Entry.look_append, hnone] at hfile
    cases hfile

end Store

namespace Generator

variable {s : Store} {p q : Path}

/-- The search for the nearest path finds it, unless a path on the way up has a name that is too
    long, or is too long itself. -/
theorem nearestExisting_cases (hq : s.Nearest p q) {above : Nat} (hp : p.parts.length ≤ above) :
    (nearestExisting s above p = .ok q ∧ ¬ s.TooLong p) ∨
    ((∃ path, nearestExisting s above p = .error (.file .nameTooLong path)) ∧ s.TooLong p) := by
  induction above generalizing p with
  | zero =>
    have hnil : p.parts = [] := List.length_eq_zero_iff.1 (Nat.le_zero.1 hp)
    obtain ⟨e, he⟩ := hq.found
    obtain rfl : q = p := hq.eq_of_nil hnil
    exact Or.inl ⟨rfl, Store.not_tooLong_of_stat he⟩
  | succ above ih =>
    unfold nearestExisting
    rcases hc : s.contains p with f | b
    · obtain ⟨path, rfl, hlong⟩ := Store.holds_eq_error.1 hc
      exact Or.inr ⟨⟨path, rfl⟩, p.parts, path, List.prefix_rfl, hlong⟩
    · cases b with
      | true =>
        obtain ⟨e, he⟩ := Store.contains_eq_true.1 hc
        exact Or.inl ⟨by rw [hq.eq_self he], Store.not_tooLong_of_stat he⟩
      | false =>
        have he : ∀ e, s.stat p ≠ .ok e := fun e he => by
          rw [Store.contains_eq_true.2 ⟨e, he⟩] at hc
          cases hc
        have hshort : ∀ path, s.stat p ≠ .error (.file .nameTooLong path) := fun path hlong => by
          rw [show s.contains p = _ from Store.holds_eq_error.2 ⟨path, rfl, hlong⟩] at hc
          cases hc
        have hne : p.parts ≠ [] := by
          intro hnil
          obtain ⟨e, hfound⟩ := hq.found
          rw [hq.eq_of_nil hnil] at hfound
          exact he e hfound
        rw [← Store.tooLong_parent_iff hne hshort]
        rw [Path.length_parent hne] at hp
        exact ih ((Store.Nearest.parent_iff hne he).2 hq) (Nat.le_of_succ_le_succ hp)

/-- The search ends within as many steps as the path has parts. -/
theorem nearestExisting_add (hs : s.Grounded) (p : Path) (more : Nat) :
    nearestExisting s (p.parts.length + more) p = nearestExisting s p.parts.length p := by
  induction p using Path.induct_parent with
  | nil root =>
    cases more with
    | zero => rfl
    | succ more =>
      obtain ⟨es, t, hstat⟩ := Store.dirAt_nil hs root
      simp only [List.length_nil, nearestExisting, Store.contains_eq_true.2 ⟨_, hstat⟩]
  | step p hne ih =>
    rw [Path.length_parent hne, Nat.add_right_comm]
    simp only [nearestExisting, ih]

theorem isUsableDir_of_short (hq : s.Nearest p q) (h : ¬ s.TooLong p) :
    isUsableDir s p = s.isDir q := by
  obtain ⟨hn, -⟩ | ⟨-, hlong⟩ := nearestExisting_cases hq (Nat.le_refl _)
  · simp only [isUsableDir, hn]
  · exact absurd hlong h

theorem isUsableDir_of_tooLong (hq : s.Nearest p q) (h : s.TooLong p) :
    ∃ path, isUsableDir s p = .error (.file .nameTooLong path) := by
  obtain ⟨-, hshort⟩ | ⟨⟨path, hn⟩, -⟩ := nearestExisting_cases hq (Nat.le_refl _)
  · exact absurd h hshort
  · exact ⟨path, by simp only [isUsableDir, hn]⟩

/-! ## Accepted configurations -/

section

variable {r : Request} {c : Config}

/-- A configuration is accepted exactly if its schema is a file and the nearest path to its output
    directory is a directory, and is found. -/
theorem accept_ok_iff (hq : s.Nearest c.outputDir q) (hc : r.config = .ok c) :
    accept s r = .ok c ↔
      s.isFile c.schemaPath = .ok true ∧ s.DirAt q ∧ ¬ s.TooLong c.outputDir := by
  rw [← Store.isDir_iff]
  simp only [accept, hc]
  by_cases hlong : s.TooLong c.outputDir
  · obtain ⟨path, hu⟩ := isUsableDir_of_tooLong hq hlong
    simp only [hu]
    rcases s.isFile c.schemaPath with f | _ | _ <;> simp [hlong]
  · simp only [isUsableDir_of_short hq hlong]
    rcases s.isFile c.schemaPath with f | _ | _ <;> rcases s.isDir q with f | _ | _ <;> simp [hlong]

/-- Where the nearest path is a file, the configuration is refused as invalid, unless the path of
    the schema or of the output directory is too long to ask for. -/
theorem accept_refused_iff (hq : s.Nearest c.outputDir q) (hc : r.config = .ok c)
    (hfile : ¬ s.DirAt q) :
    (∃ f, accept s r = .error f ∧ f.code? = some "AXE-G001") ↔
      s.isFile c.schemaPath = .ok false ∨
      s.isFile c.schemaPath = .ok true ∧ ¬ Store.Overlong c.outputDir := by
  have hcode (message : String) (details : List (String × Json)) :
      (configFailure message details none).code? = some "AXE-G001" := by
    have h1 : Area.code .generator 1 = "AXE-G001" := by cbv
    rw [← h1]
    rfl
  rw [← hq.tooLong_iff hfile]
  simp only [accept, hc]
  rcases hs : s.isFile c.schemaPath with f | _ | _
  · obtain ⟨path, rfl, -⟩ := Store.holds_eq_error.1 hs
    simp [Failure.code?]
  · simp [hcode]
  · by_cases hlong : s.TooLong c.outputDir
    · obtain ⟨path, hu⟩ := isUsableDir_of_tooLong hq hlong
      simp [hu, hlong, Failure.code?]
    · have hdir : s.isDir q = .ok false := by
        obtain ⟨e, he⟩ := hq.found
        cases e with
        | dir es t => exact absurd ⟨es, t, he⟩ hfile
        | file b t => simp [Store.isDir, Store.holds, he, Entry.isDir, Entry.isFile]
      simp [isUsableDir_of_short hq hlong, hdir, hlong, hcode]

/-- Making the output directory succeeds exactly if nothing is in the way, and leaves it there. -/
theorem makeOutputDir_ok_iff {w : World} (hw : w.store.Grounded) :
    (∃ w', (makeOutputDir p).perform w = (.ok (), w') ∧ w'.store.isDir p = .ok true) ↔
      w.store.Clear p := by
  rw [← Store.makeDirs_ok_iff hw, perform_makeOutputDir]
  constructor
  · rintro ⟨w', h, -⟩
    split at h
    · cases h
    · next s' hm => exact ⟨s', hm⟩
  · rintro ⟨s', hm⟩
    rw [hm]
    exact ⟨_, rfl, Store.isDir_iff.2 (Store.makeDirs_ok hw hm)⟩

/-- **What accepting a configuration says of its output directory.** The search for the nearest path
    ends. Where the schema is a file, the configuration is accepted exactly if that path is a
    directory and nothing is too long to ask for. The output directory can be made exactly if
    nothing is in the way; for an accepted one nothing is, if it has no zero character, its names
    can be taken and no part below the nearest path leads back up. Where the nearest path is a file,
    the configuration is refused, unless a path is too long. -/
theorem accept_outputDir {w : World} (hw : w.store.Grounded) (hc : r.config = .ok c) :
    ∃ q, w.store.Nearest c.outputDir q ∧
      (∀ more, nearestExisting w.store (c.outputDir.parts.length + more) c.outputDir =
        nearestExisting w.store c.outputDir.parts.length c.outputDir) ∧
      (accept w.store r = .ok c ↔ w.store.isFile c.schemaPath = .ok true ∧
        w.store.DirAt q ∧ ¬ w.store.TooLong c.outputDir) ∧
      ((∃ w', (makeOutputDir c.outputDir).perform w = (.ok (), w') ∧
        w'.store.isDir c.outputDir = .ok true) ↔ w.store.Clear c.outputDir) ∧
      (accept w.store r = .ok c → Store.hasNul c.outputDir = false →
        (∀ part ∈ c.outputDir.parts, part.utf8ByteSize ≤ Store.maxName) →
        ".." ∉ c.outputDir.parts.drop q.parts.length → w.store.Clear c.outputDir) ∧
      (¬ w.store.DirAt q → ((∃ f, accept w.store r = .error f ∧ f.code? = some "AXE-G001") ↔
        w.store.isFile c.schemaPath = .ok false ∨
        w.store.isFile c.schemaPath = .ok true ∧ ¬ Store.Overlong c.outputDir)) := by
  obtain ⟨q, hq⟩ := Store.exists_nearest hw c.outputDir
  refine ⟨q, hq, nearestExisting_add hw c.outputDir, accept_ok_iff hq hc, makeOutputDir_ok_iff hw,
    fun ha hn hnames hdown => ?_, accept_refused_iff hq hc⟩
  obtain ⟨-, hdir, hshort⟩ := (accept_ok_iff hq hc).1 ha
  refine hq.clear hdir hn (Nat.not_lt.1 fun hsize => hshort ?_) hnames hdown
  exact Store.Overlong.tooLong ⟨_, List.prefix_rfl, hn, hsize⟩

/-- A schema, and a file where the output directory of `roundabout` leads. -/
def occupied : World where
  store := ⟨.dir [("s", .file [] 0), ("o", .file [] 0)] 0, [], 1⟩
  reported := []

/-- A configuration whose output directory leads to a file through a directory to be made. -/
def roundabout : Config := { plainConfig with outputDir := ⟨.relative, ["m", "..", "o"]⟩ }

/-- The way round is accepted, the output directory cannot be made, and the directory on the way is
    left behind. -/
theorem accept_outputDir_roundabout : occupied.store.Grounded ∧
    (Request.checked roundabout).config = .ok roundabout ∧
    accept occupied.store (.checked roundabout) = .ok roundabout ∧
    ¬ (∃ w', (makeOutputDir roundabout.outputDir).perform occupied = (.ok (), w') ∧
      w'.store.isDir roundabout.outputDir = .ok true) ∧
    ((makeOutputDir roundabout.outputDir).perform occupied).2.store.isDir ⟨.relative, ["m"]⟩ =
      .ok true := by
  have hgrounded : occupied.store.Grounded := rfl
  obtain ⟨q, -, -, -, hmake, -⟩ :=
    accept_outputDir (r := .checked roundabout) (w := occupied) hgrounded rfl
  refine ⟨hgrounded, rfl, by cbv, fun h => ?_, by cbv⟩
  exact (hmake.1 h).noFile ["o"] ⟨_, List.prefix_rfl, rfl⟩ [] 0 rfl

end

end Generator

end Scaffold
