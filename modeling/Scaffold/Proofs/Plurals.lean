/-
  Operations on one thing and on many of them: whether they share a category.

  A resource is a word of small letters that does not end in `s`. Behind a verb it is found again as
  a word (`lowerWords_verb`), so an operation on it has its singular for a category. The singular of
  its plural is the resource exactly when it is `Regular`: words in `ie` and `se` lose another
  ending than the `s` that was put behind them, and `statu` has a plural that is a resource itself.
-/
import Mathlib
import Scaffold.Proofs.Cases

namespace Scaffold.Naming

/-- A word with its first letter large. -/
def capitalized (w : String) : String := String.ofList (upperFirst w.toList)

/-- A resource: small letters, at least one, and no `s` at the end. -/
structure IsResource (w : String) : Prop where
  ne_nil : w.toList ≠ []
  isLower : ∀ c ∈ w.toList, isLower c = true
  no_s : ¬ ['s'] <:+ w.toList

/-- A resource that is the singular of its plural. -/
def Regular (w : String) : Prop :=
  ¬ ['i', 'e'] <:+ w.toList ∧ ¬ ['s', 'e'] <:+ w.toList ∧ w ≠ "statu"

/-! ## Endings -/

theorem without_append (stem ending : List Char) : without ending (stem ++ ending) = some stem := by
  simp [without]

theorem without_eq_none {ending word : List Char} (h : ¬ ending <:+ word) :
    without ending word = none := by
  rw [Option.eq_none_iff_forall_not_mem]
  intro stem hs
  exact h ⟨stem, (without_eq_some hs).symm⟩

theorem suffix_concat {ending word : List Char} {c : Char} :
    ending ++ [c] <:+ word ++ [c] ↔ ending <:+ word := by
  constructor
  · rintro ⟨stem, hs⟩
    rw [← List.append_assoc, List.append_cancel_right_eq] at hs
    exact ⟨stem, hs⟩
  · rintro ⟨stem, rfl⟩
    exact ⟨stem, (List.append_assoc _ _ _).symm⟩

section
variable {stem cs : List Char}

theorem singularByEnding_ie : singularByEnding (stem ++ ['i', 'e', 's']) = stem ++ ['y'] := by
  rw [singularByEnding, without_append]

theorem singularByEnding_se : singularByEnding (stem ++ ['s', 'e', 's']) = stem ++ ['s'] := by
  have hies : ¬ ['i', 'e', 's'] <:+ stem ++ ['s', 'e', 's'] := by
    rintro ⟨front, hf⟩
    have := List.append_inj_right' hf rfl
    simp at this
  have hes := without_append (stem ++ ['s']) ['e', 's']
  rw [List.append_assoc] at hes
  simp only [singularByEnding, without_eq_none hies, without_append, List.cons_append,
    List.nil_append] at hes ⊢
  rw [hes]

/-- A lone `s` at the end is dropped. -/
theorem singularByEnding_s (hs : ¬ ['s'] <:+ cs) (hie : ¬ ['i', 'e'] <:+ cs)
    (hse : ¬ ['s', 'e'] <:+ cs) : singularByEnding (cs ++ ['s']) = cs := by
  have hies : without ['i', 'e', 's'] (cs ++ ['s']) = none :=
    without_eq_none fun h => hie (suffix_concat.1 h)
  have hses : without ['s', 'e', 's'] (cs ++ ['s']) = none :=
    without_eq_none fun h => hse (suffix_concat.1 h)
  have hss : without ['s', 's'] (cs ++ ['s']) = none :=
    without_eq_none fun h => hs (suffix_concat.1 h)
  simp [singularByEnding, hies, hses, hss, without_append]

/-- A word that does not end in `s` is its own singular by its ending. -/
theorem singularByEnding_self (hs : ¬ ['s'] <:+ cs) : singularByEnding cs = cs := by
  have hnone {e : List Char} (h : ['s'] <:+ e) : without e cs = none :=
    without_eq_none fun he => hs (h.trans he)
  simp [singularByEnding, hnone (e := ['i', 'e', 's']) (by decide),
    hnone (e := ['e', 's']) (by decide), hnone (e := ['s', 'e', 's']) (by decide),
    hnone (e := ['s']) (by decide)]

end

/-! ## Plurals -/

theorem singularize_of_plural {p : String × String} (h : p ∈ plurals) : singularize p.2 = p.1 := by
  have hall : ∀ p ∈ plurals, singularize p.2 = p.1 := by decide
  exact hall p h

/-- Resources are their own singulars. -/
theorem IsResource.singularize_self {w : String} (h : IsResource w) : singularize w = w := by
  unfold singularize
  split
  · next p hp =>
    have hall : ∀ p ∈ plurals, ['s'] <:+ p.2.toList := by decide
    have hw := List.find?_some hp
    rw [beq_iff_eq] at hw
    exact absurd (hw ▸ hall p (List.mem_of_find?_eq_some hp)) h.no_s
  · split
    · rfl
    · rw [singularByEnding_self h.no_s, String.ofList_toList]

theorem pluralize_cases (w : String) :
    (∃ p ∈ plurals, p.1 = w ∧ pluralize w = p.2) ∨
      (∀ p ∈ plurals, p.1 ≠ w) ∧ pluralize w = w ++ "s" := by
  unfold pluralize
  split
  · next p hp =>
    exact Or.inl ⟨p, List.mem_of_find?_eq_some hp, by simpa using List.find?_some hp, rfl⟩
  · next hnone =>
    refine Or.inr ⟨fun p hp hw => ?_, rfl⟩
    simpa [hw] using List.find?_eq_none.1 hnone p hp

theorem append_s_inj {v w : String} (h : v ++ "s" = w ++ "s") : v = w := by
  rw [← String.toList_inj] at h ⊢
  simpa using h

/-- A word with an `s` behind it has its singular by its ending, but for one that is a resource. -/
theorem singularize_append_s (w : String) : singularize (w ++ "s") =
    if w = "statu" then "status" else String.ofList (singularByEnding (w.toList ++ ['s'])) := by
  have hlist : (w ++ "s").toList = w.toList ++ ['s'] := by simp
  unfold singularize
  split
  · next p hp =>
    have hending : ∀ p ∈ plurals, p.2 ≠ "status" ∧
        p.1 = String.ofList (singularByEnding p.2.toList) := by decide
    obtain ⟨hne, he⟩ := hending p (List.mem_of_find?_eq_some hp)
    have hw : p.2 = w ++ "s" := by simpa using List.find?_some hp
    rw [hw] at hne he
    rw [if_neg (fun h => hne (by rw [h]; rfl)), he, hlist]
  · split
    · next hany =>
      obtain ⟨p, hp, hw⟩ := List.any_eq_true.1 hany
      have hkeys : ∀ p ∈ plurals, ['s'] <:+ p.1.toList → p.1 = "statu" ++ "s" := by decide
      rw [beq_iff_eq] at hw
      have hstatus := hkeys p hp ⟨w.toList, by rw [hw, hlist]⟩
      have := append_s_inj (hw.symm.trans hstatus)
      subst this
      rfl
    · next hany =>
      rw [if_neg, hlist]
      rintro rfl
      exact hany (by decide)

/-- The singular of the plural of a resource, by the ending of the resource. -/
theorem singularize_pluralize {w : String} (h : IsResource w) :
    singularize (pluralize w) =
      if w = "statu" then "status" else String.ofList (singularByEnding (w.toList ++ ['s'])) := by
  rcases pluralize_cases w with ⟨p, hp, rfl, hw⟩ | ⟨-, hw⟩
  · have hall : ∀ p ∈ plurals, ¬ ['s'] <:+ p.1.toList →
        p.1 = if p.1 = "statu" then "status" else
          String.ofList (singularByEnding (p.1.toList ++ ['s'])) := by decide
    rw [hw, singularize_of_plural hp]
    exact hall p hp h.no_s
  · rw [hw, singularize_append_s]

section
variable {w stem : String} (h : IsResource w)
include h

/-- The plural of a resource loses its ending, unless the resource is `statu`. -/
theorem IsResource.singularize_of_ending {ending : String} (he : w = stem ++ ending)
    (hend : ¬ ending.toList <:+ "statu".toList) : singularize (pluralize w) =
      String.ofList (singularByEnding (stem.toList ++ (ending.toList ++ ['s']))) := by
  have hne : w ≠ "statu" := by
    rintro rfl
    exact hend ⟨stem.toList, by simp [he]⟩
  rw [singularize_pluralize h, if_neg hne, he, String.toList_append, List.append_assoc]

theorem IsResource.singularize_ie (he : w = stem ++ "ie") :
    singularize (pluralize w) = stem ++ "y" := by
  have hlist : stem.toList ++ ("ie".toList ++ ['s']) = stem.toList ++ ['i', 'e', 's'] := rfl
  rw [h.singularize_of_ending he (by decide), hlist, singularByEnding_ie]
  simp

theorem IsResource.singularize_se (he : w = stem ++ "se") :
    singularize (pluralize w) = stem ++ "s" := by
  have hlist : stem.toList ++ ("se".toList ++ ['s']) = stem.toList ++ ['s', 'e', 's'] := rfl
  rw [h.singularize_of_ending he (by decide), hlist, singularByEnding_se]
  simp

/-- A resource is the singular of its plural exactly when it is regular. -/
theorem IsResource.singularize_pluralize_eq_iff : singularize (pluralize w) = w ↔ Regular w := by
  constructor
  · intro heq
    refine ⟨?_, ?_, ?_⟩
    · rintro ⟨front, hf⟩
      have he : w = String.ofList front ++ "ie" := by simp [← String.toList_inj, hf]
      rw [h.singularize_ie he, he, ← String.toList_inj] at heq
      simp at heq
    · rintro ⟨front, hf⟩
      have he : w = String.ofList front ++ "se" := by simp [← String.toList_inj, hf]
      rw [h.singularize_se he, he, ← String.toList_inj] at heq
      simp at heq
    · rintro rfl
      exact absurd heq (by decide)
  · rintro ⟨hie, hse, hne⟩
    rw [singularize_pluralize h, if_neg hne, singularByEnding_s h.no_s hie hse,
      String.ofList_toList]

end

/-! ## Words behind a verb -/

/-- A capital and small letters behind a small letter are a word of their own. -/
theorem pieces_capital {a u : Char} {cs : List Char} (ha : isSmall a = true)
    (hu : isUpper u = true) (hcs : ∀ c ∈ cs, isLower c = true) :
    pieces (some a) (u :: cs) = [[], u :: cs] := by
  have hsmall : ∀ c ∈ cs, isSmall c = true := fun c hc => isSmall_of_isLower (hcs c hc)
  have hcut : cutsBefore (some a) u cs.head? = true := by simp [cutsBefore, hu, ha]
  have hrest : pieces (some u) cs = [cs] := by
    rw [pieces_of_noUpper _ fun c hc => isUpper_of_isSmall (hsmall c hc)]
    exact List.splitOnP_eq_singleton fun c hc => by
      simp [isGap_eq_false.2 (Or.inl (hsmall c hc))]
  rw [pieces_cons, isGap_eq_false.2 (Or.inr hu), hcut, hrest]
  simp

/-- Two words with large first letters, the first of two letters or more. -/
theorem wordList_pair {u d v : Char} {cs ds : List Char} (hu : isUpper u = true)
    (hcs : ∀ c ∈ d :: cs, isLower c = true) (hv : isUpper v = true)
    (hds : ∀ c ∈ ds, isLower c = true) :
    wordList (u :: d :: cs ++ v :: ds) = [u :: d :: cs, v :: ds] := by
  have hsmall : ∀ c ∈ d :: cs, isSmall c = true := fun c hc => isSmall_of_isLower (hcs c hc)
  have hd := hsmall d (by simp)
  obtain ⟨b, hb, hrest⟩ := pieces_append_small hd fun c hc => hsmall c (List.mem_cons_of_mem d hc)
  have hstay : cutsBefore (some u) d (cs ++ v :: ds).head? = false := by
    simp [cutsBefore, isUpper_of_isSmall hd]
  have hpieces : pieces none (u :: d :: cs ++ v :: ds) = [u :: d :: cs, v :: ds] := by
    rw [List.cons_append, List.cons_append, pieces_none_cons, isGap_eq_false.2 (Or.inr hu),
      pieces_cons, isGap_eq_false.2 (Or.inl hd), hstay, hrest, pieces_capital hb hv hds]
    simp
  rw [wordList_eq_pieces, hpieces]
  rfl

theorem lowerAll_upperFirst {cs : List Char} (h : ∀ c ∈ cs, isLower c = true) :
    lowerAll (upperFirst cs) = cs := by
  cases cs with
  | nil => rfl
  | cons c cs =>
    have hrest : lowerAll cs = cs :=
      lowerAll_of_isSmall fun d hd => isSmall_of_isLower (h d (List.mem_cons_of_mem c hd))
    rw [upperFirst, lowerAll, List.map_cons, toLower_toUpper (h c (by simp)), ← lowerAll, hrest]

/-- A verb and the word behind it are found again. -/
theorem lowerWords_verb {v w : String} (hv : v ∈ verbs) (hne : w.toList ≠ [])
    (hw : ∀ c ∈ w.toList, isLower c = true) :
    lowerWords (capitalized v ++ capitalized w) = [v, w] := by
  have hverbs : ∀ v ∈ verbs, 2 ≤ v.toList.length ∧ v.toList.all isLower = true := by decide
  obtain ⟨hlen, hall⟩ := hverbs v hv
  rw [List.all_eq_true] at hall
  have hvlower := lowerAll_upperFirst hall
  have hwlower := lowerAll_upperFirst hw
  obtain ⟨a, b, cs, hvl⟩ : ∃ a b cs, v.toList = a :: b :: cs := by
    rcases hl : v.toList with _ | ⟨a, _ | ⟨b, cs⟩⟩
    · simp [hl] at hlen
    · simp [hl] at hlen
    · exact ⟨a, b, cs, rfl⟩
  obtain ⟨d, ds, hwl⟩ := List.exists_cons_of_ne_nil hne
  rw [hvl] at hall hvlower
  rw [hwl] at hw hwlower
  have hname : (capitalized v ++ capitalized w).toList =
      a.toUpper :: b :: cs ++ d.toUpper :: ds := by
    simp [capitalized, hvl, hwl, upperFirst]
  have hpair := wordList_pair (isUpper_toUpper (hall a (by simp)))
    (fun c hc => hall c (List.mem_cons_of_mem a hc)) (isUpper_toUpper (hw d (by simp)))
    fun c hc => hw c (List.mem_cons_of_mem d hc)
  rw [upperFirst] at hvlower hwlower
  rw [lowerWords, hname, hpair, List.map_cons, List.map_cons, hvlower, hwlower, ← hvl, ← hwl]
  simp

/-- The category of an operation on a resource is the singular of the resource. -/
theorem category_verb {v w : String} (hv : v ∈ verbs) (hne : w.toList ≠ [])
    (hw : ∀ c ∈ w.toList, isLower c = true) :
    category [] (capitalized v ++ capitalized w) = singularize w := by
  rw [category, List.find?_nil]
  simp only [categoryByName, lowerWords_verb hv hne hw, List.contains_iff_mem.2 hv, if_true]
  simp [joinWords, singularLast]

theorem IsResource.pluralize_isLower {w : String} (h : IsResource w) :
    (pluralize w).toList ≠ [] ∧ ∀ c ∈ (pluralize w).toList, Naming.isLower c = true := by
  rcases pluralize_cases w with ⟨p, hp, -, hw⟩ | ⟨-, hw⟩
  · have hall : ∀ p ∈ plurals, p.2.toList ≠ [] ∧ p.2.toList.all Naming.isLower = true := by decide
    rw [hw]
    exact ⟨(hall p hp).1, List.all_eq_true.1 (hall p hp).2⟩
  · rw [hw]
    refine ⟨by simp, fun c hc => ?_⟩
    simp only [String.toList_append, String.reduceToList, List.mem_append,
      List.mem_singleton] at hc
    rcases hc with hc | rfl
    · exact h.isLower c hc
    · rfl

/-- **Operations on one resource and on many of them share a category exactly when the resource is
    regular.** Of other resources the plural has another singular. -/
theorem category_get_list {w : String} (h : IsResource w) :
    singularize w = w ∧
    (category [] ("Get" ++ capitalized w) = category [] ("List" ++ capitalized (pluralize w)) ↔
      Regular w) ∧
    (singularize (pluralize w) = w ↔ Regular w) ∧
    category [] ("Get" ++ capitalized w) = w ∧
    category [] ("List" ++ capitalized (pluralize w)) = singularize (pluralize w) ∧
    (∀ stem, w = stem ++ "ie" → singularize (pluralize w) = stem ++ "y") ∧
    (∀ stem, w = stem ++ "se" → singularize (pluralize w) = stem ++ "s") ∧
    (w = "statu" → singularize (pluralize w) = "status") := by
  have hget : capitalized "get" = "Get" := by decide
  have hlist : capitalized "list" = "List" := by decide
  obtain ⟨hne, hlower⟩ := h.pluralize_isLower
  have hone : category [] ("Get" ++ capitalized w) = w := by
    rw [← hget, category_verb (by decide) h.ne_nil h.isLower, h.singularize_self]
  have hmany : category [] ("List" ++ capitalized (pluralize w)) = singularize (pluralize w) := by
    rw [← hlist, category_verb (by decide) hne hlower]
  refine ⟨h.singularize_self, ?_, h.singularize_pluralize_eq_iff, hone, hmany,
    fun stem => h.singularize_ie, fun stem => h.singularize_se, ?_⟩
  · rw [hone, hmany, eq_comm, h.singularize_pluralize_eq_iff]
  · rintro rfl
    decide

/-- Databases are listed under a category of their own. -/
theorem category_get_list_database :
    IsResource "database" ∧ category [] "GetDatabase" = "database" ∧
    category [] "ListDatabases" = "databas" ∧ ¬ Regular "database" := by
  have h : IsResource "database" :=
    ⟨by decide, List.all_eq_true.1 (by decide), by decide⟩
  obtain ⟨-, -, hiff, hget, hlist, -, hse, -⟩ := category_get_list h
  have hsingular := hse "databa" (by decide)
  have hplural : pluralize "database" = "databases" := by decide
  refine ⟨h, hget, ?_, fun hr => ?_⟩
  · rw [hsingular, hplural] at hlist
    exact hlist
  · have := hsingular.symm.trans (hiff.2 hr)
    exact absurd this (by decide)

end Scaffold.Naming
