/-
  What outputs ask for.

  The reference is given by relations that say what each output asks for:

  * `Replaced old new cs ds`: every occurrence of a run was replaced;
  * `Asks config x o js`: the jobs of one output, with one for each category if its path has a place
    for that, and `AsksAll` those of all outputs one after the other;
  * `Outputs config e os`: the outputs that are given, or all templates ordered by name.

  `asksAll_jobs` and `outputs_asked` say that the jobs of a configuration are these.
-/
import Mathlib
import Scaffold.Generator.Basic

namespace Scaffold

/-! ## The order of names -/

namespace Text

theorem precedesBy_iff (as bs : List Char) : precedesBy Char.toNat as bs = true ↔ as < bs := by
  induction as generalizing bs with
  | nil => cases bs <;> simp [precedesBy]
  | cons a as ih =>
    cases bs with
    | nil => simp [precedesBy]
    | cons b bs =>
      have hlt : a.toNat < b.toNat ↔ a < b := Iff.rfl
      have heq : a.toNat = b.toNat ↔ a = b := ⟨Char.toNat_inj.1, congrArg _⟩
      simp [precedesBy, ih, List.cons_lt_cons_iff, hlt, heq]

/-- Strings are ordered by their code points. -/
theorem notAfter_iff (a b : String) : notAfter a b = true ↔ a ≤ b := by
  rw [notAfter, Bool.not_eq_true', Bool.eq_false_iff, ne_eq, precedesBy_iff,
    ← String.lt_iff_toList_lt, not_lt]

theorem notAfter_trans {α : Type} (name : α → String) (a b c : α)
    (hab : notAfter (name a) (name b) = true) (hbc : notAfter (name b) (name c) = true) :
    notAfter (name a) (name c) = true := by
  rw [notAfter_iff] at hab hbc ⊢
  exact hab.trans hbc

theorem notAfter_total {α : Type} (name : α → String) (a b : α) :
    (notAfter (name a) (name b) || notAfter (name b) (name a)) = true := by
  rw [Bool.or_eq_true, notAfter_iff, notAfter_iff]
  exact le_total (name a) (name b)

/-- What is ordered by name comes in the order of the names. -/
theorem pairwise_mergeSort_notAfter {α : Type} (name : α → String) (items : List α) :
    (items.mergeSort fun a b => notAfter (name a) (name b)).Pairwise
      fun a b => name a ≤ name b :=
  (List.pairwise_mergeSort (notAfter_trans name) (notAfter_total name) items).imp
    fun hab => (notAfter_iff _ _).1 hab

/-! ## Replacing a run -/

theorem startsWithList_isPrefix {sub xs : List Char} :
    startsWithList sub xs = true ↔ sub <+: xs := by
  induction sub generalizing xs with
  | nil => simp [startsWithList]
  | cons a sub ih =>
    cases xs with
    | nil => simp [startsWithList]
    | cons x xs =>
      rw [startsWithList, Bool.and_eq_true, beq_iff_eq, ih, List.cons_prefix_cons, eq_comm]

theorem occursIn_iff {sub xs : List Char} : occursIn sub xs = true ↔ sub <:+: xs := by
  induction xs with
  | nil => simp [occursIn]
  | cons x xs ih =>
    rw [occursIn, Bool.or_eq_true, startsWithList_isPrefix, ih, List.infix_cons_iff]

/-- Every occurrence of `old` was replaced by `new`: what stands before, between and after them is
    as it was. -/
inductive Replaced (old new : List Char) : List Char → List Char → Prop
  | last {p : List Char} : ¬ old <:+: p → Replaced old new p p
  | next {p cs ds : List Char} : ¬ old <:+: p → Replaced old new cs ds →
      Replaced old new (p ++ old ++ cs) (p ++ new ++ ds)

variable {old new : List Char}

theorem replaceRun_cons (x : Char) (xs : List Char) :
    replaceRun old new none 0 (x :: xs) =
      if startsWithList old (x :: xs) then new ++ replaceRun old new none (old.length - 1) xs
      else x :: replaceRun old new none 0 xs := by
  simp [replaceRun]

theorem replaceRun_drop (skip : Nat) (cs : List Char) :
    replaceRun old new none skip cs = replaceRun old new none 0 (cs.drop skip) := by
  induction cs generalizing skip with
  | nil => simp [replaceRun]
  | cons c cs ih =>
    cases skip with
    | zero => rfl
    | succ skip => rw [replaceRun, List.drop_succ_cons, ih]

theorem replaced_replaceRun (hne : old ≠ []) (cs : List Char) :
    Replaced old new cs (replaceRun old new none 0 cs) := by
  induction hn : cs.length using Nat.strong_induction_on generalizing cs with
  | _ n ih =>
    subst hn
    cases cs with
    | nil => exact .last (by simpa using hne)
    | cons c cs =>
      rw [replaceRun_cons]
      by_cases hs : startsWithList old (c :: cs) = true
      · -- an occurrence, with nothing before it
        rw [if_pos hs, replaceRun_drop]
        obtain ⟨rest, hrest⟩ := startsWithList_isPrefix.1 hs
        obtain ⟨a, old, rfl⟩ := List.exists_cons_of_ne_nil hne
        obtain ⟨rfl, rfl⟩ := List.cons.inj hrest
        have hrest := ih rest.length (by simp) rest rfl
        have hnext := Replaced.next (p := []) (by simp) hrest
        simpa using hnext
      · rw [if_neg hs]
        have hrest := ih cs.length (by simp) cs rfl
        have hstart {p rest : List Char} (hp : ¬ old <:+: p) (hcs : cs = p ++ rest) :
            ¬ old <:+: c :: p := by
          rw [List.infix_cons_iff]
          rintro (h | h)
          · exact hs (startsWithList_isPrefix.2 (h.trans (hcs ▸ List.prefix_append (c :: p) rest)))
          · exact hp h
        generalize replaceRun old new none 0 cs = ds at hrest
        cases hrest with
        | last hp => exact .last (hstart hp (List.append_nil _).symm)
        | @next p cs ds hp h => exact .next (hstart hp (List.append_assoc p old cs)) h

end Text

namespace Generator

/-! ## The jobs of outputs -/

theorem placeholder_eq :
    placeholder = ['\x7b', 'c', 'a', 't', 'e', 'g', 'o', 'r', 'y', '\x7d'] := by cbv

theorem placeholder_ne_nil : placeholder ≠ [] := by simp [placeholder_eq]

/-- Where an output goes for a category. -/
def categoryPath (config : Config) (category output : String) : Path :=
  config.outputDir.join
    (String.ofList (Text.replace placeholder category.toList none output.toList))

/-- The job of an output for a category: its path has the category in every place for it. -/
structure IsFor (config : Config) (output : String × String) (k : String) (j : Job) : Prop where
  template : j.template = output.1
  path : ∃ p : String, Text.Replaced placeholder k.toList output.2.toList p.toList ∧
    j.path = config.outputDir.join p
  category : j.category = some k

/-- What an output asks for: one job, or one for each category in their order. -/
inductive Asks (config : Config) (x : Context) (output : String × String) : List Job → Prop
  | once : ¬ placeholder <:+: output.2.toList →
      Asks config x output [⟨output.1, config.outputDir.join output.2, none⟩]
  | each {js : List Job} : placeholder <:+: output.2.toList →
      List.Forall₂ (IsFor config output) (x.categories.map Prod.fst) js → Asks config x output js

/-- What outputs ask for, one after the other. -/
inductive AsksAll (config : Config) (x : Context) : List (String × String) → List Job → Prop
  | nil : AsksAll config x [] []
  | cons {o : String × String} {os : List (String × String)} {js more : List Job} :
      Asks config x o js → AsksAll config x os more → AsksAll config x (o :: os) (js ++ more)

/-- The outputs of a configuration, or all templates under their own names, ordered by name. -/
def Outputs (config : Config) (e : Engine) (os : List (String × String)) : Prop :=
  (config.outputs ≠ [] ∧ os = config.outputs) ∨
    (config.outputs = [] ∧ ∃ names : List String, names.Perm (e.library.map Prod.fst) ∧
      names.Pairwise (· ≤ ·) ∧ os = names.map fun n => (n, n))

section

variable (config : Config) (x : Context) (e : Engine)

theorem isFor_category (output : String × String) (k : String) :
    IsFor config output k ⟨output.1, categoryPath config k output.2, some k⟩ where
  template := rfl
  path := by
    refine ⟨_, ?_, rfl⟩
    have hrun : Text.replace placeholder k.toList none output.2.toList =
        Text.replaceRun placeholder k.toList none 0 output.2.toList := by
      simp [Text.replace, placeholder_ne_nil]
    rw [String.toList_ofList, hrun]
    exact Text.replaced_replaceRun placeholder_ne_nil _
  category := rfl

theorem asks_jobsOf (output : String × String) :
    Asks config x output (jobsOf config x output) := by
  unfold jobsOf
  by_cases hp : placeholder <:+: output.2.toList
  · rw [if_pos (Text.occursIn_iff.2 hp)]
    refine .each hp ?_
    rw [List.forall₂_map_left_iff, List.forall₂_map_right_iff]
    exact List.forall₂_same.2 fun g _ => isFor_category config output g.1
  · rw [if_neg (mt Text.occursIn_iff.1 hp)]
    exact .once hp

/-- **The jobs of a configuration are what its outputs ask for.** -/
theorem asksAll_jobs : AsksAll config x (outputs config e) (jobs config x e) := by
  unfold jobs
  induction outputs config e with
  | nil => exact .nil
  | cons o os ih => exact .cons (asks_jobsOf config x o) ih

/-- Outputs that are not given are the templates, ordered by name. -/
theorem outputs_asked : Outputs config e (outputs config e) := by
  unfold outputs
  by_cases ho : config.outputs = []
  · refine Or.inr ⟨ho, e.names, List.mergeSort_perm _ _, ?_, by simp [ho]⟩
    exact Text.pairwise_mergeSort_notAfter id (e.library.map Prod.fst)
  · exact Or.inl ⟨ho, if_neg (by simpa using ho)⟩

end

end Generator

end Scaffold
