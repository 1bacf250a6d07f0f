/-
  The names of handlers.

  A handler has the name of its operation in snake case. That name is made of letters, digits and
  low lines, and it starts with the first letter or digit of the operation's name
  (`snakeChars_head?`), so it is an identifier exactly when that is a letter. Two operations have
  handlers of one name exactly when they have the same words, whatever their case
  (`snakeCase_eq_iff`).

  `handlerNames_usable`: the names of operations are told apart before a context is built, so
  handlers can be told apart where the names are words with large first letters; in general they
  can where no two operations of a category have the same words.
-/
import Mathlib
import Scaffold.Proofs.Cases
import Scaffold.Proofs.Partition

namespace Scaffold

namespace Naming

/-- An identifier: letters, digits and low lines, and no digit first. -/
def IsIdentifier (n : String) : Prop :=
  ∃ c cs, n.toList = c :: cs ∧ isNumeral c = false ∧ ∀ d ∈ c :: cs, IsCategoryChar d

/-- The first letter or digit of a name is a letter. -/
def LetterFirst (n : String) : Prop :=
  ∃ c, n.toList.find? Text.isAsciiAlphanumeric = some c ∧ isNumeral c = false

/-- A name of words with large first letters, each of two or more characters. -/
def IsPascal (n : String) : Prop :=
  ∃ ws : List String, ws ≠ [] ∧ (∀ w ∈ ws, IsPlain w.toList) ∧ n = pascalCase (joinWords ws)

/-! ## Snake case -/

theorem mem_snakeChars {name : List Char} : ∀ c ∈ snakeChars name, IsCategoryChar c := by
  intro c hc
  rcases mem_joinWith hc with rfl | ⟨w, hw, hc⟩
  · exact Or.inr rfl
  · left
    have hsmall := (allSmall_lowerAll name w hw).2 c hc
    rw [isAsciiAlphanumeric_iff]
    rw [isSmall_iff] at hsmall
    omega

theorem flatten_wordList (name : List Char) :
    (wordList name).flatten = name.filter Text.isAsciiAlphanumeric := by
  rw [wordList_eq_pieces, List.flatten_filter_not_isEmpty, flatten_pieces]

/-- In snake case a name starts with its first letter or digit. -/
theorem snakeChars_head? (name : List Char) :
    (snakeChars name).head? = (name.find? Text.isAsciiAlphanumeric).map Char.toLower := by
  rw [← List.head?_filter, ← flatten_wordList, snakeChars]
  cases hws : wordList name with
  | nil => rfl
  | cons w ws =>
    have hne := (mem_wordList (by simp [hws] : w ∈ wordList name)).1
    obtain ⟨c, cs, rfl⟩ := List.exists_cons_of_ne_nil hne
    cases ws with
    | nil => simp [Text.joinWith, lowerAll]
    | cons v ws => simp [Text.joinWith, lowerAll]

theorem isNumeral_toLower (c : Char) : isNumeral c.toLower = isNumeral c := by
  cases h : isUpper c with
  | true =>
    have hlow := isLower_toLower h
    rw [isUpper_iff] at h
    rw [isLower_iff] at hlow
    rw [Bool.eq_iff_iff, isNumeral_iff, isNumeral_iff]
    omega
  | false => rw [toLower_eq_self h]

/-- A name in snake case is an identifier exactly when its first letter or digit is a letter. -/
theorem isIdentifier_snakeCase (n : String) : IsIdentifier (snakeCase n) ↔ LetterFirst n := by
  have hhead := snakeChars_head? n.toList
  unfold IsIdentifier LetterFirst
  rw [snakeCase, String.toList_ofList]
  constructor
  · rintro ⟨c, cs, hcs, hc, -⟩
    rw [hcs, List.head?_cons] at hhead
    obtain ⟨d, hd, hdc⟩ := Option.map_eq_some_iff.1 hhead.symm
    exact ⟨d, hd, by rwa [← isNumeral_toLower, hdc]⟩
  · rintro ⟨d, hd, hn⟩
    rw [hd, Option.map_some] at hhead
    obtain ⟨cs, hcs⟩ := List.head?_eq_some_iff.1 hhead
    exact ⟨d.toLower, cs, hcs, by rwa [isNumeral_toLower], hcs ▸ mem_snakeChars⟩

theorem wordList_snakeChars (name : List Char) :
    wordList (snakeChars name) = (wordList name).map lowerAll :=
  wordList_joinWith (allSmall_lowerAll name)

/-- Two names are the same in snake case exactly when they have the same words, whatever their
    case. -/
theorem snakeCase_eq_iff {n m : String} :
    snakeCase n = snakeCase m ↔ lowerWords n = lowerWords m := by
  have hlower (n : String) : lowerWords n = (wordList (snakeChars n.toList)).map String.ofList := by
    rw [wordList_snakeChars, List.map_map]
    rfl
  constructor
  · intro h
    rw [hlower, hlower, String.ofList_injective h]
  · intro h
    rw [hlower, hlower, List.map_inj_right fun _ _ => String.ofList_inj.1] at h
    rw [wordList_snakeChars, wordList_snakeChars] at h
    rw [snakeCase, snakeCase, snakeChars, snakeChars, h]

/-! ## Words with large first letters -/

theorem IsPascal.snakeCase_eq {n : String} (h : IsPascal n) :
    ∃ ws : List String, ws ≠ [] ∧ (∀ w ∈ ws, IsPlain w.toList) ∧ n = pascalCase (joinWords ws) ∧
      snakeCase n = joinWords ws := by
  obtain ⟨ws, hne, hws, rfl⟩ := h
  refine ⟨ws, hne, hws, rfl, ?_⟩
  have hlists : ∀ w ∈ ws.map String.toList, IsPlain w := by simpa using hws
  have hundoes := (snakeChars_undoes hlists).1
  rw [← joinWords_toList] at hundoes
  rw [snakeCase, pascalCase, String.toList_ofList, hundoes, String.ofList_toList]

/-- Names of words with large first letters differ in snake case too. -/
theorem IsPascal.inj {n m : String} (hn : IsPascal n) (hm : IsPascal m)
    (h : snakeCase n = snakeCase m) : n = m := by
  obtain ⟨ws, -, -, rfl, hws⟩ := hn.snakeCase_eq
  obtain ⟨vs, -, -, rfl, hvs⟩ := hm.snakeCase_eq
  rw [hws, hvs] at h
  rw [h]

theorem IsPascal.letterFirst {n : String} (h : IsPascal n) : LetterFirst n := by
  obtain ⟨ws, hne, hws, -, hsnake⟩ := h.snakeCase_eq
  obtain ⟨w, ws, rfl⟩ := List.exists_cons_of_ne_nil hne
  obtain ⟨c, d, cs, hw, hc, -⟩ := hws w (by simp)
  have hfirst : (joinWords (w :: ws)).toList.head? = some c := by
    rw [joinWords_toList, List.map_cons, hw]
    cases ws with
    | nil => rfl
    | cons v ws => rfl
  rw [← hsnake, snakeCase, String.toList_ofList, snakeChars_head?] at hfirst
  obtain ⟨b, hb, rfl⟩ := Option.map_eq_some_iff.1 hfirst
  refine ⟨b, hb, ?_⟩
  rw [← isNumeral_toLower, Bool.eq_false_iff, Ne, isNumeral_iff]
  rw [isLower_iff] at hc
  omega

end Naming

namespace Context

open Naming

/-- Handlers can be told apart: their names are identifiers, and those of a category differ. -/
@[mk_iff]
structure Usable (ops : List OperationEntry) : Prop where
  identifiers : ∀ o ∈ ops, IsIdentifier o.handlerName
  distinct : ops.Pairwise fun o p => o.category = p.category → o.handlerName ≠ p.handlerName

/-- **When handlers can be told apart.** In every context the names of handlers are made of letters,
    digits and low lines. They are identifiers that differ within each category exactly when each
    operation's name has a letter before any digit and no two operations of a category have the same
    words. This holds where the names are words with large first letters. -/
theorem handlerNames_usable {s : Specification} {c : Config} {x : Context}
    (h : build s c = .ok x) :
    (∀ o ∈ x.operations, ∀ d ∈ o.handlerName.toList, IsCategoryChar d) ∧
    (∀ o ∈ x.operations, IsIdentifier o.handlerName ↔ LetterFirst o.name) ∧
    (∀ o ∈ x.operations, ∀ p ∈ x.operations,
      o.handlerName = p.handlerName ↔ lowerWords o.name = lowerWords p.name) ∧
    (Usable x.operations ↔ (∀ n ∈ s.operationNames, LetterFirst n) ∧
      s.operationNames.Pairwise fun n m =>
        category c.groups n = category c.groups m → lowerWords n ≠ lowerWords m) ∧
    ((∀ n ∈ s.operationNames, IsPascal n) → Usable x.operations) := by
  obtain ⟨rfl, hnodup⟩ := nodup_of_build h
  have hnames : ∀ o ∈ (assemble c s).operations, o.handlerName = snakeCase o.name := by
    intro o ho
    obtain ⟨op, -, rfl⟩ := List.mem_map.1 ho
    rfl
  have hidentifier : ∀ o ∈ (assemble c s).operations,
      IsIdentifier o.handlerName ↔ LetterFirst o.name := by
    intro o ho
    rw [hnames o ho, isIdentifier_snakeCase]
  have husable : Usable (assemble c s).operations ↔ (∀ n ∈ s.operationNames, LetterFirst n) ∧
      s.operationNames.Pairwise fun n m =>
        category c.groups n = category c.groups m → lowerWords n ≠ lowerWords m := by
    have hops : (assemble c s).operations = s.operations.map (operationEntry c) := rfl
    rw [usable_iff, hops, Specification.operationNames, List.forall_mem_map, List.forall_mem_map,
      List.pairwise_map, List.pairwise_map]
    simp only [operationEntry, isIdentifier_snakeCase, ne_eq, snakeCase_eq_iff]
  refine ⟨fun o ho d hd => ?_, hidentifier, fun o ho p hp => ?_, husable, fun hpascal => ?_⟩
  · rw [hnames o ho, snakeCase, String.toList_ofList] at hd
    exact mem_snakeChars d hd
  · rw [hnames o ho, hnames p hp, snakeCase_eq_iff]
  · refine husable.2 ⟨fun n hn => (hpascal n hn).letterFirst, ?_⟩
    -- the names differ, and so do their words
    refine hnodup.imp_of_mem fun hn hm hne _ hw => hne ?_
    exact (hpascal _ hn).inj (hpascal _ hm) (snakeCase_eq_iff.2 hw)

/-- Operations whose names differ in their first letter only, and one whose name starts with a
    digit. -/
def crampedSpec : Specification :=
  { operations := [{ name := "GetTool" }, { name := "getTool" }, { name := "2fa" }] }

/-- Operations on tools, in words with large first letters. -/
def roomySpec : Specification :=
  { operations := [{ name := "GetTool" }, { name := "ListTools" }] }

/-- Two handlers of tools have one name, and a third has a name that is no identifier. -/
theorem handlerNames_usable_tools : ∃ x y,
    build crampedSpec Generator.toolsConfig = .ok x ∧
    x.operations.map OperationEntry.handlerName = ["get_tool", "get_tool", "2fa"] ∧
    ¬ Usable x.operations ∧
    build roomySpec Generator.toolsConfig = .ok y ∧ Usable y.operations := by
  have hx : build crampedSpec Generator.toolsConfig =
      .ok (assemble Generator.toolsConfig crampedSpec) := by
    have hnone : refusal? crampedSpec = none := by cbv
    simp only [build, hnone]
  have hy : build roomySpec Generator.toolsConfig =
      .ok (assemble Generator.toolsConfig roomySpec) := by
    have hnone : refusal? roomySpec = none := by cbv
    simp only [build, hnone]
  refine ⟨_, _, hx, by decide +kernel, ?_, hy, ?_⟩
  · rw [(handlerNames_usable hx).2.2.2.1]
    rintro ⟨hfirst, -⟩
    obtain ⟨c, hc, hn⟩ := hfirst "2fa" (by decide)
    have : some '2' = some c := hc
    cases this
    cases hn
  · have hplain {c d : Char} {cs : List Char} (h : isLower c && (d :: cs).all isSmall) :
        IsPlain (c :: d :: cs) := by
      rw [Bool.and_eq_true, List.all_eq_true] at h
      exact ⟨c, d, cs, rfl, h.1, h.2⟩
    refine (handlerNames_usable hy).2.2.2.2 fun n hn => ?_
    have hn : n = "GetTool" ∨ n = "ListTools" := by
      simpa [roomySpec, Specification.operationNames] using hn
    rcases hn with rfl | rfl
    · refine ⟨["get", "tool"], by simp, ?_, by decide +kernel⟩
      simp only [List.forall_mem_cons]
      exact ⟨hplain (by decide), hplain (by decide), by simp⟩
    · refine ⟨["list", "tools"], by simp, ?_, by decide +kernel⟩
      simp only [List.forall_mem_cons]
      exact ⟨hplain (by decide), hplain (by decide), by simp⟩

end Context

end Scaffold
