/-
  What the category of an operation is made of.

  Words of a name are runs of letters and digits, and so are their singulars; a category joins them
  with low lines (`mem_categoryByName`). A singular is empty for one word only, a lone `s`, so a
  category is empty exactly for names such as `GetS` (`categoryByName_eq_empty`).

  `mem_sortedGroups` says which categories a context has.
-/
import Mathlib
import Scaffold.Context

namespace Scaffold.Naming

/-! ## Words -/

/-- A word: letters and digits, at least one. -/
def IsWord (w : String) : Prop :=
  w ≠ "" ∧ ∀ c ∈ w.toList, Text.isAsciiAlphanumeric c = true

theorem mem_runsFrom {run cs w : List Char} (hrun : ∀ c ∈ run, Text.isAsciiAlphanumeric c = true)
    (hw : w ∈ runsFrom run cs) : ∀ c ∈ w, Text.isAsciiAlphanumeric c = true := by
  induction cs generalizing run with
  | nil =>
    simp only [runsFrom, List.mem_singleton] at hw
    subst hw
    simpa using hrun
  | cons x cs ih =>
    unfold runsFrom at hw
    split at hw
    · next hx =>
      refine ih (fun c hc => ?_) hw
      rcases List.mem_cons.1 hc with rfl | hc
      · exact hx
      · exact hrun c hc
    · rcases List.mem_cons.1 hw with rfl | hw
      · simpa using hrun
      · exact ih (by simp) hw

theorem mem_wordList {name w : List Char} (h : w ∈ wordList name) :
    w ≠ [] ∧ ∀ c ∈ w, Text.isAsciiAlphanumeric c = true := by
  obtain ⟨hw, hne⟩ := List.mem_filter.1 h
  exact ⟨by simpa using hne, mem_runsFrom (by simp) hw⟩

theorem isAsciiAlphanumeric_iff (c : Char) :
    Text.isAsciiAlphanumeric c = true ↔ (97 ≤ c.toNat ∧ c.toNat ≤ 122) ∨
      (65 ≤ c.toNat ∧ c.toNat ≤ 90) ∨ (48 ≤ c.toNat ∧ c.toNat ≤ 57) := by
  simp only [Text.isAsciiAlphanumeric, Bool.or_eq_true, Bool.and_eq_true, decide_eq_true_eq,
    Char.le_def, UInt32.le_iff_toNat_le]
  exact or_assoc

theorem isAsciiAlphanumeric_toLower {c : Char} (h : Text.isAsciiAlphanumeric c = true) :
    Text.isAsciiAlphanumeric c.toLower = true := by
  unfold Char.toLower
  split
  · next hc =>
    have hlo : 65 ≤ c.val.toNat := UInt32.le_iff_toNat_le.1 hc.1
    have hhi : c.val.toNat ≤ 90 := UInt32.le_iff_toNat_le.1 hc.2
    rw [isAsciiAlphanumeric_iff]
    left
    show 97 ≤ (c.val + 32).toNat ∧ (c.val + 32).toNat ≤ 122
    rw [UInt32.toNat_add]
    simp only [UInt32.reduceToNat]
    omega
  · exact h

theorem isWord_of_mem_lowerWords (name : String) {w : String} (h : w ∈ lowerWords name) :
    IsWord w := by
  obtain ⟨v, hv, rfl⟩ := List.mem_map.1 h
  obtain ⟨hne, hchars⟩ := mem_wordList hv
  constructor
  · intro he
    have : lowerAll v = [] := by simpa using congrArg String.toList he
    exact hne (by simpa [lowerAll] using this)
  · intro c hc
    rw [String.toList_ofList] at hc
    obtain ⟨d, hd, rfl⟩ := List.mem_map.1 hc
    exact isAsciiAlphanumeric_toLower (hchars d hd)

/-! ## Singulars -/

theorem without_eq_some {ending word stem : List Char} (h : without ending word = some stem) :
    word = stem ++ ending := by
  unfold without at h
  split at h
  · next hp =>
    obtain ⟨front, hf⟩ := List.reverse_prefix.1 (List.isPrefixOf_iff_prefix.1 hp)
    cases h
    subst hf
    simp
  · cases h

/-- A singular is the word or a start of it, perhaps with a `y` behind. -/
theorem mem_singularByEnding {word : List Char} {c : Char} (h : c ∈ singularByEnding word) :
    c ∈ word ∨ c = 'y' := by
  unfold singularByEnding at h
  split at h
  · next stem hs =>
    rw [without_eq_some hs]
    simpa [or_comm] using (List.mem_append.1 h).imp_left fun h => Or.inl h
  · split at h
    · next hs _ =>
      rw [without_eq_some hs]
      exact Or.inl (List.mem_append_left _ h)
    · split at h
      · next hs _ =>
        rw [without_eq_some hs]
        exact Or.inl (List.mem_append_left _ h)
      · exact Or.inl h

theorem singularByEnding_eq_nil {word : List Char} (hne : word ≠ []) :
    singularByEnding word = [] ↔ word = ['s'] := by
  constructor
  · intro h
    unfold singularByEnding at h
    split at h
    · simp at h
    · split at h
      · next stem _ hs hs' =>
        -- `ses` is longer than `es`, so something is left
        have := congrArg List.length ((without_eq_some hs).symm.trans (without_eq_some hs'))
        simp [h] at this
      · split at h
        · next hs _ =>
          rw [without_eq_some hs, h]
          rfl
        · exact absurd h hne
  · rintro rfl
    rfl

theorem singularize_isWord {w : String} (h : IsWord w) (hs : w ≠ "s") : IsWord (singularize w) := by
  unfold singularize
  split
  · next p hp =>
    have hall : ∀ p ∈ plurals, p.1 ≠ "" ∧ ∀ c ∈ p.1.toList, Text.isAsciiAlphanumeric c = true := by
      simp [plurals, Text.isAsciiAlphanumeric]
    exact hall p (List.mem_of_find?_eq_some hp)
  · split
    · exact h
    · refine ⟨fun he => hs ?_, fun c hc => ?_⟩
      · have hnil : singularByEnding w.toList = [] := by simpa using congrArg String.toList he
        have hne : w.toList ≠ [] := by simpa using h.1
        have := (singularByEnding_eq_nil hne).1 hnil
        rw [← String.ofList_toList (s := w), this]
      · rw [String.toList_ofList] at hc
        rcases mem_singularByEnding hc with hc | rfl
        · exact h.2 c hc
        · decide

theorem singularize_lone_s : singularize "s" = "" := by decide

/-! ## Categories -/

/-- A character of a category: a letter, a digit or the low line. -/
def IsCategoryChar (c : Char) : Prop := Text.isAsciiAlphanumeric c = true ∨ c = '_'

/-- A name that consists of a verb and a lone `s`. -/
def IsVerbWithLoneS (name : String) : Prop := ∃ v ∈ verbs, lowerWords name = [v, "s"]

theorem joinWords_cons_cons (v w : String) (ws : List String) :
    (joinWords (v :: w :: ws)).toList = v.toList ++ '_' :: (joinWords (w :: ws)).toList := by
  simp [joinWords, String.intercalate_cons_cons]

theorem mem_joinWords_singularLast {ws : List String} (h : ∀ w ∈ ws, IsWord w) :
    ∀ c ∈ (joinWords (singularLast ws)).toList, IsCategoryChar c := by
  have hsingular {w : String} (hw : IsWord w) : ∀ c ∈ (singularize w).toList, IsCategoryChar c := by
    intro c hc
    by_cases hs : w = "s"
    · rw [hs, singularize_lone_s] at hc
      cases hc
    · exact Or.inl ((singularize_isWord hw hs).2 c hc)
  induction ws with
  | nil => simp [singularLast, joinWords]
  | cons w ws ih =>
    cases ws with
    | nil => simpa [singularLast, joinWords] using hsingular (h w (by simp))
    | cons u ws =>
      have ih := ih fun w hw => h w (List.mem_cons_of_mem _ hw)
      obtain ⟨x, xs, hx⟩ : ∃ x xs, singularLast (u :: ws) = x :: xs := by
        cases ws <;> exact ⟨_, _, rfl⟩
      rw [singularLast, hx, joinWords_cons_cons, ← hx]
      · intro c hc
        rcases List.mem_append.1 hc with hc | hc
        · exact Or.inl ((h w (by simp)).2 c hc)
        · rcases List.mem_cons.1 hc with rfl | hc
          · exact Or.inr rfl
          · exact ih c hc
      · simp

theorem joinWords_singularLast_eq_empty {ws : List String} (hne : ws ≠ [])
    (h : ∀ w ∈ ws, IsWord w) : joinWords (singularLast ws) = "" ↔ ws = ["s"] := by
  cases ws with
  | nil => exact absurd rfl hne
  | cons w ws =>
    cases ws with
    | nil =>
      simp only [singularLast, joinWords, String.intercalate_singleton, List.cons.injEq, and_true]
      constructor
      · intro he
        by_contra hs
        exact (singularize_isWord (h w (by simp)) hs).1 he
      · rintro rfl
        exact singularize_lone_s
    | cons u ws =>
      obtain ⟨x, xs, hx⟩ : ∃ x xs, singularLast (u :: ws) = x :: xs := by
        cases ws <;> exact ⟨_, _, rfl⟩
      refine iff_of_false (fun he => ?_) (by simp)
      have hlist := congrArg String.toList he
      rw [singularLast, hx, joinWords_cons_cons] at hlist
      · simp at hlist
      · simp

/-- Categories by name are made of letters, digits and low lines. -/
theorem mem_categoryByName (name : String) :
    ∀ c ∈ (categoryByName name).toList, IsCategoryChar c := by
  have hdefault : ∀ c ∈ defaultCategory.toList, IsCategoryChar c := by
    simp [defaultCategory, IsCategoryChar, Text.isAsciiAlphanumeric]
  unfold categoryByName
  split
  · next v w rest hw =>
    split
    · refine mem_joinWords_singularLast fun u hu => isWord_of_mem_lowerWords name ?_
      rw [hw]
      exact List.mem_cons_of_mem v hu
    · exact hdefault
  · exact hdefault

/-- A category by name is empty only where a lone `s` follows the verb. -/
theorem categoryByName_eq_empty (name : String) :
    categoryByName name = "" ↔ IsVerbWithLoneS name := by
  unfold categoryByName IsVerbWithLoneS
  split
  · next v w rest hw =>
    split
    · next hv =>
      have hwords : ∀ u ∈ w :: rest, IsWord u := fun u hu =>
        isWord_of_mem_lowerWords name (by rw [hw]; exact List.mem_cons_of_mem v hu)
      rw [joinWords_singularLast_eq_empty (by simp) hwords, hw]
      simpa using fun _ _ => List.contains_iff_mem.1 hv
    · next hv =>
      refine iff_of_false (by decide) ?_
      rintro ⟨u, hu, he⟩
      rw [hw] at he
      cases he
      exact hv (List.contains_iff_mem.2 hu)
  · next hw =>
    refine iff_of_false (by decide) ?_
    rintro ⟨u, -, he⟩
    exact hw u "s" [] he

end Scaffold.Naming

namespace Scaffold.Context

/-! ## The categories of a context -/

theorem mem_addTo {k category name : String} {groups : List (String × List String)} :
    k ∈ (addTo category name groups).map Prod.fst ↔ k = category ∨ k ∈ groups.map Prod.fst := by
  induction groups with
  | nil => simp [addTo]
  | cons g groups ih =>
    obtain ⟨j, names⟩ := g
    unfold addTo
    by_cases hj : j = category
    · simp [hj]
    · rw [if_neg (by simpa using hj), List.map_cons, List.mem_cons, ih, List.map_cons,
        List.mem_cons]
      tauto

theorem mem_grouped {k : String} {ops : List OperationEntry} :
    k ∈ (grouped ops).map Prod.fst ↔ ∃ o ∈ ops, o.category = k := by
  suffices ∀ groups, k ∈ (ops.foldl (fun groups o => addTo o.category o.name groups) groups).map
      Prod.fst ↔ k ∈ groups.map Prod.fst ∨ ∃ o ∈ ops, o.category = k by
    simpa [grouped] using this []
  induction ops with
  | nil => simp
  | cons o ops ih =>
    intro groups
    rw [List.foldl_cons, ih, mem_addTo]
    simp only [List.mem_cons, exists_eq_or_imp, eq_comm (a := k)]
    tauto

/-- The categories of a context are those of its operations. -/
theorem mem_sortedGroups {k : String} {ops : List OperationEntry} :
    k ∈ (sortedGroups ops).map Prod.fst ↔ ∃ o ∈ ops, o.category = k := by
  rw [← mem_grouped]
  simp only [sortedGroups, List.mem_map, List.mem_mergeSort]

end Scaffold.Context
