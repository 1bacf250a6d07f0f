/-
  What the operations of the file store keep.

  Entries are compared by what stands at the end of a way: a file with its bytes and its time, or a
  directory, whatever it holds (`Entry.look`). On that level each operation changes one place.

  * `Kept s s'`: everything in `s` stands at the same place in `s'`. Removing leaves a store kept in
    the one before (`unlink_kept`, `removeAll_kept`), and making directories keeps the one before
    (`makeDirs_kept`). What a path leads to is kept then too (`Kept.stat`).
  * `write_stat`: after a file was written, a path leads to that file or to what it led to before.
  * `makeDirs_parent_error` and `write_error`: where a file could not be written, there is none that
    was not there before.
  * `locate_error` and the lemmas after it: without a zero character in the path, what fails fails
    because of files.
-/
import Scaffold.Effect

namespace Scaffold

/-! ## Entries -/

/-- What stands at the end of a way: a file, or a directory whatever it holds. -/
inductive Kind where
  | file (bytes : List UInt8) (time : Int)
  | dir

namespace Entry

/-- What an entry is. -/
def kind : Entry → Kind
  | file bytes time => .file bytes time
  | dir _ _ => .dir

theorem eq_file_of_kind {e : Entry} {bytes : List UInt8} {t : Int}
    (h : e.kind = .file bytes t) : e = .file bytes t := by
  cases e with
  | file => cases h; rfl
  | dir => cases h

/-- What stands at the end of a way, if anything does. -/
def look (e : Entry) (way : Way) : Option Kind := (e.get? way).map kind

variable {n name : String} {new : Entry} {es : List (String × Entry)} {time now : Int}

@[simp] theorem look_nil (e : Entry) : e.look [] = some e.kind := rfl

theorem look_dir (way : Way) : (dir es time).look (n :: way) = (find? n es).bind (·.look way) := by
  simp only [look, get?, child?]
  cases find? n es <;> rfl

theorem find?_insert_self : find? name (insert name new es) = some new := by
  induction es with
  | nil => simp [insert, find?]
  | cons x es ih =>
    by_cases hx : x.1 = name
    · simp [insert, find?, hx]
    · simp [insert, find?, hx, ih]

theorem find?_insert_of_ne (h : n ≠ name) : find? n (insert name new es) = find? n es := by
  induction es with
  | nil => simp [insert, find?, h.symm]
  | cons x es ih =>
    by_cases hx : x.1 = name
    · simp [insert, find?, hx, h.symm]
    · simp [insert, find?, hx, ih]

theorem find?_remove_self : find? name (remove name es) = none := by
  induction es with
  | nil => rfl
  | cons x es ih =>
    by_cases hx : x.1 = name
    · simpa [remove, hx] using ih
    · simpa [remove, find?, hx] using ih

theorem find?_remove_of_ne (h : n ≠ name) : find? n (remove name es) = find? n es := by
  induction es with
  | nil => rfl
  | cons x es ih =>
    by_cases hx : x.1 = name
    · simpa [remove, find?, hx, h.symm] using ih
    · by_cases hn : x.1 = n
      · simp [remove, find?, hn, h]
      · simpa [remove, find?, hx, hn] using ih

/-- An entry without entries of its own. -/
def Bare (e : Entry) : Prop := ∀ n way, e.look (n :: way) = none

theorem bare_file (bytes : List UInt8) (time : Int) : (file bytes time).Bare := fun _ _ => rfl

theorem bare_dir (time : Int) : (dir [] time).Bare := fun _ _ => rfl

/-- Where no directory stands, putting an entry without entries changes nothing elsewhere. -/
theorem look_put_of_ne (hnew : new.Bare) {way way' : Way} {e : Entry} (h : e.look way ≠ some .dir)
    (hne : way' ≠ way) : (put now new way e).look way' = e.look way' := by
  induction way generalizing e way' with
  | nil =>
    cases e with
    | file bytes time =>
      cases way' with
      | nil => exact absurd rfl hne
      | cons n rest => exact hnew n rest
    | dir es time => exact absurd rfl h
  | cons name rest ih =>
    cases e with
    | file bytes time => rfl
    | dir es time =>
      cases hf : find? name es with
      | none =>
        cases rest with
        | nil =>
          cases way' with
          | nil => simp [put, hf, kind]
          | cons n way' =>
            simp only [put, hf, look_dir]
            by_cases hn : n = name
            · subst hn
              cases way' with
              | nil => exact absurd rfl hne
              | cons m way' => rw [find?_insert_self, hf]; exact hnew m way'
            · rw [find?_insert_of_ne hn]
        | cons m rest => simp [put, hf]
      | some c =>
        have hput : put now new (name :: rest) (dir es time) =
            dir (insert name (put now new rest c) es) time := by
          cases rest <;> simp [put, hf]
        rw [hput]
        cases way' with
        | nil => rfl
        | cons n way' =>
          rw [look_dir, look_dir]
          by_cases hn : n = name
          · subst hn
            rw [find?_insert_self, hf]
            refine ih ?_ fun hw => hne (by rw [hw])
            simpa [look_dir, hf] using h
          · rw [find?_insert_of_ne hn]

/-- An entry that is put stands at the end of its way, if anything can. -/
theorem get?_put_self (now : Int) (new : Entry) (way : Way) (e : Entry) :
    (put now new way e).get? way = some new ∨ (put now new way e).get? way = none := by
  induction way generalizing e with
  | nil => exact Or.inl rfl
  | cons name rest ih =>
    cases e with
    | file bytes time => exact Or.inr rfl
    | dir es time =>
      cases hf : find? name es with
      | none =>
        cases rest with
        | nil => exact Or.inl (by simp [put, hf, get?, child?, find?_insert_self])
        | cons m rest => exact Or.inr (by simp [put, hf, get?, child?])
      | some c =>
        have hget : (put now new (name :: rest) (dir es time)).get? (name :: rest) =
            (put now new rest c).get? rest := by
          cases rest <;> simp [put, hf, get?, child?, find?_insert_self]
        rw [hget]
        exact ih c

/-- Removing an entry changes nothing but that entries are gone. -/
theorem look_erase (way way' : Way) (e : Entry) :
    (erase now way e).look way' = e.look way' ∨ (erase now way e).look way' = none := by
  induction way generalizing e way' with
  | nil => cases e <;> exact Or.inl rfl
  | cons name rest ih =>
    cases e with
    | file bytes time => exact Or.inl (by cases rest <;> rfl)
    | dir es time =>
      cases way' with
      | nil =>
        left
        cases rest with
        | nil => rfl
        | cons m rest => cases hf : find? name es <;> simp [erase, hf, kind]
      | cons n way' =>
        cases rest with
        | nil =>
          by_cases hn : n = name
          · subst hn; exact Or.inr (by simp [erase, look_dir, find?_remove_self])
          · exact Or.inl (by simp [erase, look_dir, find?_remove_of_ne hn])
        | cons m rest =>
          cases hf : find? name es with
          | none => exact Or.inl (by simp [erase, hf])
          | some c =>
            simp only [erase, hf, look_dir]
            by_cases hn : n = name
            · subst hn; rw [find?_insert_self, hf]; exact ih way' c
            · rw [find?_insert_of_ne hn]; exact Or.inl rfl

end Entry

namespace Store

/-! ## Following paths -/

theorem get?_of_look_dir {top : Entry} {way : Way} (h : top.look way = some .dir) :
    ∃ es t, top.get? way = some (.dir es t) := by
  obtain ⟨e, he, hk⟩ := Option.map_eq_some_iff.1 h
  cases e with
  | file bytes t => cases hk
  | dir es t => exact ⟨es, t, he⟩

theorem walk_append (top : Entry) (way : Way) (ps qs : List String) :
    walk top way (ps ++ qs) =
      match walk top way ps with
      | .ok way => walk top way qs
      | .error problem => .error problem := by
  induction ps generalizing way with
  | nil => rfl
  | cons p ps ih =>
    simp only [List.cons_append, walk]
    cases top.get? way with
    | none => rfl
    | some e =>
      cases e with
      | file bytes t => rfl
      | dir es t =>
        simp only [ih]
        (repeat' split) <;> simp_all

/-- A path can still be followed where all directories are kept. -/
theorem walk_mono {top top' : Entry}
    (h : ∀ way, top.look way = some .dir → top'.look way = some .dir) {way r : Way}
    {ps : List String} (hw : walk top way ps = .ok r) : walk top' way ps = .ok r := by
  induction ps generalizing way with
  | nil => exact hw
  | cons p ps ih =>
    simp only [walk] at hw ⊢
    cases hg : top.get? way with
    | none => rw [hg] at hw; cases hw
    | some e =>
      cases e with
      | file bytes t => rw [hg] at hw; cases hw
      | dir es t =>
        obtain ⟨es', t', hg'⟩ := get?_of_look_dir (h way (by rw [Entry.look, hg]; rfl))
        rw [hg] at hw
        rw [hg']
        simp only [] at hw ⊢
        split
        · next hp => rw [if_pos hp] at hw; exact ih hw
        · next hp =>
          rw [if_neg hp] at hw
          split
          · next hl => rw [if_pos hl] at hw; cases hw
          · next hl => rw [if_neg hl] at hw; exact ih hw

theorem locate_eq_ok {s : Store} {p : Path} {way : Way} :
    s.locate p = .ok way ↔ hasNul p = false ∧ p.text.utf8ByteSize ≤ maxPath ∧
      walk s.top (s.start p) p.parts = .ok way := by
  unfold locate
  cases hasNul p with
  | true => simp
  | false =>
    by_cases ht : p.text.utf8ByteSize > maxPath
    · have hle : ¬ p.text.utf8ByteSize ≤ maxPath := Nat.not_le.2 ht
      simp [ht, hle]
    · simp only [ht, if_false, Bool.false_eq_true]
      cases walk s.top (s.start p) p.parts <;> simp [Nat.le_of_not_lt ht]

theorem stat_eq_ok {s : Store} {p : Path} {e : Entry} :
    s.stat p = .ok e ↔ ∃ way, s.locate p = .ok way ∧ s.top.get? way = some e := by
  unfold stat
  cases s.locate p with
  | error f => simp
  | ok way => cases h : s.top.get? way <;> simp [h]

/-- Where directories stay, a path that leads somewhere leads there still. -/
theorem locate_mono {s s' : Store} {p : Path} {way : Way} (hbase : s'.base = s.base)
    (hdir : ∀ way, s.top.look way = some .dir → s'.top.look way = some .dir)
    (hl : s.locate p = .ok way) : s'.locate p = .ok way := by
  obtain ⟨hn, ht, hw⟩ := locate_eq_ok.1 hl
  have hstart : s'.start p = s.start p := by simp only [start, hbase]
  exact locate_eq_ok.2 ⟨hn, ht, hstart ▸ walk_mono hdir hw⟩

/-! ## What is kept -/

/-- Everything in a store stands at the same place in another one. -/
structure Kept (s s' : Store) : Prop where
  base : s'.base = s.base
  now : s'.now = s.now
  look : ∀ way k, s.top.look way = some k → s'.top.look way = some k

namespace Kept

variable {s s' s'' : Store} {p : Path}

theorem refl (s : Store) : Kept s s := ⟨rfl, rfl, fun _ _ h => h⟩

theorem trans (h : Kept s s') (h' : Kept s' s'') : Kept s s'' :=
  ⟨h'.base.trans h.base, h'.now.trans h.now, fun way k hk => h'.look way k (h.look way k hk)⟩

theorem locate (h : Kept s s') {way : Way} (hl : s.locate p = .ok way) :
    s'.locate p = .ok way :=
  locate_mono h.base (fun way => h.look way .dir) hl

theorem stat (h : Kept s s') {e : Entry} (hs : s.stat p = .ok e) :
    ∃ e', s'.stat p = .ok e' ∧ e'.kind = e.kind := by
  obtain ⟨way, hl, hg⟩ := stat_eq_ok.1 hs
  obtain ⟨e', hg', hk⟩ := Option.map_eq_some_iff.1 (h.look way e.kind (by rw [Entry.look, hg]; rfl))
  exact ⟨e', stat_eq_ok.2 ⟨way, h.locate hl, hg'⟩, hk⟩

theorem stat_file (h : Kept s s') {bytes : List UInt8} {t : Int}
    (hs : s.stat p = .ok (.file bytes t)) : s'.stat p = .ok (.file bytes t) := by
  obtain ⟨e, he, hk⟩ := h.stat hs
  rw [he, Entry.eq_file_of_kind hk]

end Kept

variable {s s' : Store} {p q : Path}

theorem erase_kept (s : Store) (way : Way) :
    Kept { s with top := Entry.erase s.now way s.top } s := by
  refine ⟨rfl, rfl, fun way' k hk => ?_⟩
  rcases Entry.look_erase way way' s.top with h | h
  · rw [← h]; exact hk
  · rw [h] at hk; cases hk

theorem unlink_kept (h : s.unlink p = .ok s') : Kept s' s := by
  unfold unlink at h
  split at h
  · cases h; exact .refl _
  · cases h
  · split at h
    · cases h; exact .refl _
    · cases h
    · cases h; exact erase_kept s _

theorem removeAll_kept (h : s.removeAll p = .ok s') : Kept s' s := by
  unfold removeAll at h
  split at h
  · cases h
  · split at h
    · cases h
    · cases h; exact erase_kept s _

/-! ## Placing entries -/

theorem get?_place_self {way : Way} {new e : Entry} (h : (s.place way new).top.get? way = some e) :
    e = new := by
  have h : (Entry.put s.now new way s.top).get? way = some e := h
  rcases Entry.get?_put_self s.now new way s.top with hp | hp
  · rw [hp] at h; cases h; rfl
  · rw [hp] at h; cases h

theorem look_place_of_ne {way way' : Way} {new : Entry} (hnew : new.Bare)
    (hd : s.top.look way ≠ some .dir) (hne : way' ≠ way) :
    (s.place way new).top.look way' = s.top.look way' :=
  Entry.look_put_of_ne hnew hd hne

theorem write_eq_ok {bytes : List UInt8} (h : s.write p bytes = .ok s') :
    ∃ way, s.locate p = .ok way ∧ s.top.look way ≠ some .dir ∧
      s' = s.place way (.file bytes s.now) := by
  unfold write writeAt at h
  split at h
  · cases h
  · next way hl =>
    split at h
    · cases h
    · next hd =>
      cases h
      refine ⟨way, hl, fun hlook => ?_, rfl⟩
      obtain ⟨es, t, hg⟩ := get?_of_look_dir hlook
      exact hd es t hg

/-- A file that is written adds no directory. -/
theorem locate_of_place_file {way r : Way} {bytes : List UInt8} {t : Int}
    (hd : s.top.look way ≠ some .dir) (hl : (s.place way (.file bytes t)).locate q = .ok r) :
    s.locate q = .ok r := by
  refine locate_mono (s := s.place way (.file bytes t)) rfl (fun r hr => ?_) hl
  by_cases hrw : r = way
  · subst hrw
    obtain ⟨es, t, hg⟩ := get?_of_look_dir hr
    cases get?_place_self hg
  · rw [← look_place_of_ne (Entry.bare_file bytes t) hd hrw]; exact hr

/-- What a path leads to after a file was written: that file, or what it led to before, the path
    written to apart. -/
theorem write_stat {bytes : List UInt8} (h : s.write p bytes = .ok s') {e : Entry}
    (he : s'.stat q = .ok e) :
    e = .file bytes s.now ∨ (q ≠ p ∧ ∃ e₀, s.stat q = .ok e₀ ∧ e₀.kind = e.kind) := by
  obtain ⟨way, hl, hd, rfl⟩ := write_eq_ok h
  obtain ⟨way', hl', hg⟩ := stat_eq_ok.1 he
  have hl' := locate_of_place_file hd hl'
  by_cases hw : way' = way
  · subst hw
    exact Or.inl (get?_place_self hg)
  · refine Or.inr ⟨?_, ?_⟩
    · rintro rfl
      rw [hl] at hl'
      cases hl'
      exact hw rfl
    · have hlook := look_place_of_ne (Entry.bare_file bytes s.now) hd hw
      rw [Entry.look, hg] at hlook
      obtain ⟨e₀, hg₀, hk⟩ := Option.map_eq_some_iff.1 hlook.symm
      exact ⟨e₀, stat_eq_ok.2 ⟨way', hl', hg₀⟩, hk⟩

theorem write_stat_self {bytes : List UInt8} (h : s.write p bytes = .ok s') {e : Entry}
    (he : s'.stat p = .ok e) : e = .file bytes s.now := by
  rcases write_stat h he with he | ⟨hne, -⟩
  · exact he
  · exact absurd rfl hne

theorem write_error {bytes : List UInt8} {f : Failure} (h : s.write p bytes = .error f)
    (b : List UInt8) (t : Int) : s.stat p ≠ .ok (.file b t) := by
  intro hs
  obtain ⟨way, hl, hg⟩ := stat_eq_ok.1 hs
  simp [write, writeAt, hl, hg] at h

/-! ## Making directories -/

theorem makeDir_eq_ok (h : s.makeDir p = .ok s') :
    ∃ way, s.locate p = .ok way ∧ s.top.look way = none ∧
      s' = s.place way (.dir [] s.now) := by
  unfold makeDir at h
  split at h
  · cases h
  · next way hl =>
    split at h
    · cases h
    · next hg => cases h; exact ⟨way, hl, by rw [Entry.look, hg]; rfl, rfl⟩

/-- A directory is made, or nothing is. -/
theorem ensureDir_rel {R : Store → Store → Prop} (hrefl : R s s)
    (hmake : ∀ s', s.makeDir p = .ok s' → R s s') : R s (s.ensureDir p).2 := by
  unfold ensureDir
  split
  · next h => exact hmake _ h
  · exact hrefl
  · exact hrefl

/-- What making one directory does, and making those above it before, making directories does. -/
theorem makeDirsFrom_rel {R : Path → Store → Store → Prop} (hrefl : ∀ p s, R p s s)
    (hmake : ∀ p s s', s.makeDir p = .ok s' → R p s s')
    (habove : ∀ p s s' s'', R p.parent s s' → R p s' s'' → R p s s'')
    (above : Nat) (s : Store) (p : Path) : R p s (makeDirsFrom above s p).2 := by
  have hensure (s : Store) (p : Path) : R p s (s.ensureDir p).2 :=
    ensureDir_rel (hrefl p s) (hmake p s)
  induction above generalizing s p with
  | zero => exact hensure s p
  | succ above ih =>
    unfold makeDirsFrom
    split
    · have hup := ih s p.parent
      split
      · next h => rw [h] at hup; exact habove p _ _ _ hup (hrefl p _)
      · next h => rw [h] at hup; exact habove p _ _ _ hup (hensure _ p)
    · exact hensure s p

theorem makeDir_kept (h : s.makeDir p = .ok s') : Kept s s' := by
  obtain ⟨way, -, hnone, rfl⟩ := makeDir_eq_ok h
  refine ⟨rfl, rfl, fun way' k hk => ?_⟩
  rw [look_place_of_ne (Entry.bare_dir _) (by simp [hnone])]
  · exact hk
  · rintro rfl
    rw [hnone] at hk
    cases hk

theorem makeDirs_kept (s : Store) (p : Path) : Kept s (s.makeDirs p).2 :=
  makeDirsFrom_rel (R := fun _ => Kept) (fun _ => .refl) (fun _ _ _ => makeDir_kept)
    (fun _ _ _ _ => .trans) _ s p

/-- A path leads to a directory. -/
def DirAt (s : Store) (p : Path) : Prop := ∃ es t, s.stat p = .ok (.dir es t)

theorem ensureDir_error {f : Failure} (h : s.ensureDir p = (.error f, s')) :
    s' = s ∧ ¬ s.DirAt p := by
  unfold ensureDir at h
  split at h
  · cases h
  · next path hm =>
    cases h
    refine ⟨rfl, ?_⟩
    rintro ⟨es, t, hs⟩
    obtain ⟨way, hl, hg⟩ := stat_eq_ok.1 hs
    simp [makeDir, hl, hg] at hm
  · next g hne hm =>
    injection h with h₁ h₂
    refine ⟨h₂.symm, ?_⟩
    rintro ⟨es, t, hs⟩
    obtain ⟨way, hl, hg⟩ := stat_eq_ok.1 hs
    -- the path is taken, and accepted as it leads to a directory
    have hg : g = .file .taken p.text := by simpa [makeDir, hl, hg] using hm.symm
    subst hg
    simp [accept, isDir, holds, hs, Entry.isDir, Entry.isFile] at h₁

theorem parent_of_nil (h : p.parts = []) : p.parent = p := by
  obtain ⟨root, parts⟩ := p
  cases h
  rfl

theorem utf8ByteSize_parent_le (hp : p.parts ≠ []) (ht : p.text.utf8ByteSize ≤ maxPath) :
    p.parent.text.utf8ByteSize ≤ maxPath := by
  obtain ⟨root, parts⟩ := p
  simp only [Path.parent]
  generalize hq : parts.dropLast = qs
  have hparts : parts = qs ++ [parts.getLast hp] := by
    rw [← hq]; exact (List.dropLast_concat_getLast hp).symm
  cases qs with
  | nil => cases root <;> decide
  | cons x qs =>
    have hlen : ("/".intercalate (x :: qs)).utf8ByteSize ≤
        ("/".intercalate parts).utf8ByteSize := by
      rw [hparts, String.intercalate_append_of_ne_nil (by simp) (by simp)]
      simp only [String.utf8ByteSize_append]
      omega
    have htext (ps : List String) (h : ps ≠ []) :
        (Path.text ⟨root, ps⟩) = Path.rootText root ++ "/".intercalate ps := by
      cases ps with
      | nil => exact absurd rfl h
      | cons => cases root <;> rfl
    rw [htext _ (by simp), String.utf8ByteSize_append]
    rw [htext parts hp, String.utf8ByteSize_append] at ht
    omega

theorem hasNul_parent (h : hasNul p = false) : hasNul p.parent = false := by
  simp only [hasNul, List.any_eq_false] at h ⊢
  exact fun part hpart => h part (List.dropLast_subset _ hpart)

theorem parent_dirAt (hp : p.parts ≠ []) {e : Entry} (h : s.stat p = .ok e) :
    s.DirAt p.parent := by
  obtain ⟨way, hl, -⟩ := stat_eq_ok.1 h
  obtain ⟨hn, ht, hw⟩ := locate_eq_ok.1 hl
  rw [← List.dropLast_concat_getLast hp, walk_append] at hw
  split at hw
  · next up hup =>
    -- the last part is followed from a directory
    simp only [walk] at hw
    split at hw
    · cases hw
    · cases hw
    · next es t hd =>
      exact ⟨es, t, stat_eq_ok.2
        ⟨up, locate_eq_ok.2 ⟨hasNul_parent hn, utf8ByteSize_parent_le hp ht, hup⟩, hd⟩⟩
  · cases hw

theorem makeDirsFrom_error {above : Nat} {f : Failure}
    (h : makeDirsFrom above s p = (.error f, s')) : ¬ s'.DirAt p := by
  induction above generalizing s p s' f with
  | zero =>
    obtain ⟨rfl, hd⟩ := ensureDir_error h
    exact hd
  | succ above ih =>
    unfold makeDirsFrom at h
    split at h
    · split at h
      · next g s₁ hup =>
        cases h
        have hup := ih hup
        by_cases hp : p.parts = []
        · rwa [parent_of_nil hp] at hup
        · rintro ⟨es, t, hs⟩
          exact hup (parent_dirAt hp hs)
      · obtain ⟨rfl, hd⟩ := ensureDir_error h
        exact hd
    · obtain ⟨rfl, hd⟩ := ensureDir_error h
      exact hd

/-- Where the directories above a path could not be made, the path leads to nothing new. -/
theorem makeDirs_parent_error {f : Failure} (h : s.makeDirs p.parent = (.error f, s')) :
    s' = s ∨ ∀ e, s'.stat p ≠ .ok e := by
  by_cases hp : p.parts = []
  · rw [parent_of_nil hp, makeDirs, hp] at h
    exact Or.inl (ensureDir_error h).1
  · exact Or.inr fun e hs => makeDirsFrom_error h (parent_dirAt hp hs)

/-! ## Failures -/

theorem locate_error {f : Failure} (hn : hasNul p = false) (h : s.locate p = .error f) :
    f.isFile = true := by
  unfold locate at h
  rw [if_neg (by simp [hn])] at h
  split at h
  · cases h; rfl
  · split at h <;> cases h
    rfl

theorem stat_of_hasNul (h : hasNul p = true) : s.stat p = .error .nulInPath := by
  simp [stat, locate, h]

theorem stat_error {f : Failure} (h : s.stat p = .error f) (hf : f.isFile = false) :
    hasNul p = true ∧ f = .nulInPath := by
  cases hn : hasNul p with
  | true => rw [stat_of_hasNul hn] at h; cases h; exact ⟨rfl, rfl⟩
  | false =>
    unfold stat at h
    split at h
    · next hl =>
      cases h
      rw [locate_error hn hl] at hf
      cases hf
    · split at h <;> cases h
      cases hf

theorem write_error_isFile {bytes : List UInt8} {f : Failure} (hn : hasNul p = false)
    (h : s.write p bytes = .error f) : f.isFile = true := by
  unfold write writeAt at h
  split at h
  · next hl => cases h; exact locate_error hn hl
  · split at h <;> cases h
    rfl

theorem makeDir_error_isFile {f : Failure} (hn : hasNul p = false) (h : s.makeDir p = .error f) :
    f.isFile = true := by
  unfold makeDir at h
  split at h
  · next hl => cases h; exact locate_error hn hl
  · split at h <;> cases h
    rfl

theorem ensureDir_error_isFile {f : Failure} (hn : hasNul p = false)
    (h : (s.ensureDir p).1 = .error f) : f.isFile = true := by
  unfold ensureDir at h
  split at h
  · cases h
  · cases h; rfl
  · next g _ hm =>
    have hg := makeDir_error_isFile hn hm
    simp only [accept] at h
    split at h
    · split at h
      · cases h
      · cases h; rfl
      · next hd =>
        cases h
        simp only [isDir, holds] at hd
        split at hd <;> cases hd
        rfl
    · cases h; exact hg

theorem stat_of_read {bytes : List UInt8} (h : s.read p = .ok bytes) :
    ∃ time, s.stat p = .ok (.file bytes time) := by
  unfold read at h
  split at h
  · cases h
  · next time hs => cases h; exact ⟨time, hs⟩
  · cases h

theorem makeDirs_error_isFile {f : Failure} (hn : hasNul p = false)
    (h : (s.makeDirs p).1 = .error f) : f.isFile = true := by
  unfold makeDirs at h
  generalize p.parts.length = above at h
  induction above generalizing s p with
  | zero => exact ensureDir_error_isFile hn h
  | succ above ih =>
    unfold makeDirsFrom at h
    split at h
    · split at h
      · next hup => cases h; exact ih (hasNul_parent hn) (by rw [hup])
      · exact ensureDir_error_isFile hn h
    · exact ensureDir_error_isFile hn h

end Store

end Scaffold
