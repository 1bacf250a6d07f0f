/-
  The search for broken source visits the nodes of a tree in the order of the source.

  * `preorder` lists the nodes of a tree by recursion, each before its children. An address leads
    from the top of a tree down to a node, and addresses in lexicographic order are the order of the
    source: a node comes before its children, and these before the next sibling.
  * A `Turn` takes the top off the stack of the search and puts its children there. After `n` turns
    the stack holds the nodes from the `n`-th on, and none of those before marks broken source
    (`Turns.pending`, `Turns.visited`), so the search ends with the first node that does.

  `firstError_preorder` ties the search, the recursion and the addresses to each other.
-/
import Mathlib
import Scaffold.Proofs.Trees

namespace Scaffold.Source.SyntaxTree

/-! ## The order of the source -/

mutual

/-- The nodes of a tree, each before its children. -/
def preorder : SyntaxTree → List SyntaxTree
  | t@(node _ _ _ _ cs) => t :: preorderAll cs

/-- The nodes of trees, one tree after the other. -/
def preorderAll : List SyntaxTree → List SyntaxTree
  | [] => []
  | t :: ts => preorder t ++ preorderAll ts

end

variable {t n : SyntaxTree}

theorem preorderAll_append (ts us : List SyntaxTree) :
    preorderAll (ts ++ us) = preorderAll ts ++ preorderAll us := by
  induction ts with
  | nil => simp [preorderAll]
  | cons t ts ih => simp [preorderAll, ih]

theorem preorderAll_eq (ts : List SyntaxTree) : preorderAll ts = ts.flatMap preorder := by
  induction ts with
  | nil => rfl
  | cons t ts ih => simp [preorderAll, ih]

theorem preorder_eq (t : SyntaxTree) : t.preorder = t :: preorderAll t.children := by
  cases t
  rw [preorder, children]

theorem mem_preorder : n ∈ t.preorder ↔ Within n t := by
  induction t using induct with
  | h t ih =>
    rw [preorder_eq, preorderAll_eq, within_iff, List.mem_cons, List.mem_flatMap]
    exact or_congr_right (exists_congr fun c => and_congr_right fun hc => ih c hc)

/-- The node at an address: from each node on the way to the child with the next number. -/
def at? : List Nat → SyntaxTree → Option SyntaxTree
  | [], t => some t
  | i :: a, t => t.children[i]?.bind (at? a)

theorem within_of_at? {a : List Nat} (h : t.at? a = some n) : Within n t := by
  induction a generalizing t with
  | nil => exact Option.some.inj h ▸ .self _
  | cons i a ih =>
    obtain ⟨c, hc, hn⟩ := Option.bind_eq_some_iff.1 h
    exact .inChild (List.mem_of_getElem? hc) (ih hn)

/-- A node that marks broken source, at an address before which there is none. -/
structure IsFirst (t : SyntaxTree) (a : List Nat) (n : SyntaxTree) : Prop where
  at_eq : t.at? a = some n
  isError : n.isError = true
  before : ∀ b m, List.Lex (· < ·) b a → t.at? b = some m → m.isError = false

theorem IsFirst.eq {a b : List Nat} {m : SyntaxTree} (h : t.IsFirst a n) (h' : t.IsFirst b m) :
    n = m := by
  rcases trichotomous_of (List.Lex (· < · : Nat → Nat → Prop)) a b with hab | rfl | hba
  · have := h'.before a n hab h.at_eq
    rw [h.isError] at this
    cases this
  · exact Option.some.inj (h.at_eq.symm.trans h'.at_eq)
  · have := h.before b m hba h'.at_eq
    rw [h'.isError] at this
    cases this

/-- The first node of the recursion that marks broken source has the first address. -/
theorem exists_isFirst (h : t.preorder.find? isError = some n) : ∃ a, t.IsFirst a n := by
  induction t using induct with
  | h t ih =>
    rw [preorder_eq, List.find?_cons] at h
    split at h
    · next he =>
      cases h
      exact ⟨[], rfl, he, fun b m hb => by cases hb⟩
    · next he =>
      rw [preorderAll_eq, List.find?_flatMap, List.findSome?_eq_some_iff] at h
      obtain ⟨before, c, after, hcs, hc, hbefore⟩ := h
      obtain ⟨a, ha⟩ := ih c (by rw [hcs]; simp) hc
      have hat (b : List Nat) : t.at? (before.length :: b) = c.at? b := by simp [at?, hcs]
      refine ⟨before.length :: a, by rw [hat, ha.at_eq], ha.isError, fun b m hb hm => ?_⟩
      cases hb with
      | nil =>
        cases hm
        simpa using he
      | cons hb => exact ha.before _ m hb (by rwa [hat] at hm)
      | @rel i _ b _ hi =>
        -- the children before `c` were searched in vain
        obtain ⟨d, hd, hm⟩ := Option.bind_eq_some_iff.1 hm
        rw [hcs, List.getElem?_append_left hi] at hd
        have hnone := List.find?_eq_none.1 (hbefore d (List.mem_of_getElem? hd)) m
          (mem_preorder.2 (within_of_at? hm))
        simpa using hnone

/-! ## The turns of the search -/

/-- One turn of the search: the top of the stack, which does not mark broken source, gives way to
    its children. -/
inductive Turn : List SyntaxTree → List SyntaxTree → Prop
  | descend {t rest} : t.isError = false → Turn (t :: rest) (t.children ++ rest)

/-- This many turns one after the other. -/
inductive Turns : Nat → List SyntaxTree → List SyntaxTree → Prop
  | zero {stack} : Turns 0 stack stack
  | succ {k stack next last} : Turn stack next → Turns k next last → Turns (k + 1) stack last

/-- What the search ends with when the stack allows no turn. -/
inductive Ends : List SyntaxTree → Option SyntaxTree → Prop
  | empty : Ends [] none
  | found {t rest} : t.isError = true → Ends (t :: rest) (some t)

variable {k : Nat} {stack last : List SyntaxTree}

theorem preorderAll_cons (t : SyntaxTree) (rest : List SyntaxTree) :
    preorderAll (t :: rest) = t :: preorderAll (t.children ++ rest) := by
  rw [preorderAll, preorder_eq, preorderAll_append, List.cons_append]

/-- The stack holds what has not been visited yet. -/
theorem Turns.pending (h : Turns k stack last) :
    preorderAll last = (preorderAll stack).drop k := by
  induction h with
  | zero => rfl
  | succ hturn _ ih =>
    cases hturn
    rw [ih, preorderAll_cons, List.drop_succ_cons]

/-- What has been visited does not mark broken source. -/
theorem Turns.visited (h : Turns k stack last) : k ≤ (preorderAll stack).findIdx isError := by
  induction h with
  | zero => exact Nat.zero_le _
  | succ hturn _ ih =>
    obtain ⟨he⟩ := hturn
    rw [preorderAll_cons, List.findIdx_cons, he]
    exact Nat.succ_le_succ ih

/-- What is looked for stays the same. -/
theorem Turns.find?_eq (h : Turns k stack last) :
    (preorderAll last).find? isError = (preorderAll stack).find? isError := by
  induction h with
  | zero => rfl
  | succ hturn _ ih =>
    obtain ⟨he⟩ := hturn
    rw [ih, preorderAll_cons, List.find?_cons, he]

/-- The search takes as many turns as there are nodes before the one it looks for. -/
theorem exists_turns (stack : List SyntaxTree) :
    ∃ last, Turns ((preorderAll stack).findIdx isError) stack last ∧
      Ends last (searchError stack) := by
  induction stack using searchError.induct with
  | case1 => exact ⟨[], .zero, by rw [searchError]; exact .empty⟩
  | case2 t rest he =>
    refine ⟨t :: rest, ?_, by rw [searchError, if_pos he]; exact .found he⟩
    rw [preorderAll_cons, List.findIdx_cons, he]
    exact .zero
  | case3 t rest he ih =>
    obtain ⟨last, hturns, hends⟩ := ih
    have he : t.isError = false := by simpa using he
    refine ⟨last, ?_, by rw [searchError, he]; exact hends⟩
    rw [preorderAll_cons, List.findIdx_cons, he]
    exact .succ (.descend he) hturns

theorem Ends.eq_find? {r : Option SyntaxTree} (h : Ends stack r) :
    r = (preorderAll stack).find? isError := by
  cases h with
  | empty => rfl
  | found he => rw [preorderAll_cons, List.find?_cons, he]

/-- The search gives the first node of the recursion that marks broken source. -/
theorem searchError_eq_find? (stack : List SyntaxTree) :
    searchError stack = (preorderAll stack).find? isError := by
  obtain ⟨last, hturns, hends⟩ := exists_turns stack
  rw [hends.eq_find?, hturns.find?_eq]

theorem firstError_eq_find? (t : SyntaxTree) : t.firstError = t.preorder.find? isError := by
  have hall : preorderAll [t] = t.preorder := by simp [preorderAll]
  rw [firstError, searchError_eq_find?, hall]
  split
  · rfl
  · next h =>
    rw [hasError_iff] at h
    refine (List.find?_eq_none.2 fun n hn he => h ⟨n, mem_preorder.1 hn, he⟩).symm

/-- **The search for broken source is the recursion over the tree.** A tree is flagged if and only
    if one of its nodes marks broken source. The search ends, after as many turns as there are
    nodes before the first such node, and its result is that node: the first of the recursion, and
    the one at the first address. It gives nothing if and only if there is no such node. -/
theorem firstError_preorder (t : SyntaxTree) :
    (t.hasError = true ↔ ∃ n ∈ t.preorder, n.isError = true) ∧
    (∀ k stack, Turns k [t] stack → k ≤ t.preorder.findIdx isError ∧
      preorderAll stack = t.preorder.drop k) ∧
    (∃ stack, Turns (t.preorder.findIdx isError) [t] stack ∧ Ends stack (searchError [t])) ∧
    t.firstError = t.preorder.find? isError ∧
    (∀ n, t.firstError = some n ↔ ∃ a, t.IsFirst a n) ∧
    (t.firstError = none ↔ ∀ n ∈ t.preorder, n.isError = false) := by
  have hall : preorderAll [t] = t.preorder := by simp [preorderAll]
  refine ⟨?_, fun k stack h => hall ▸ ⟨h.visited, h.pending⟩, hall ▸ exists_turns [t],
    firstError_eq_find? t, fun n => ?_, ?_⟩
  · simp only [hasError_iff, Broken, mem_preorder]
  · rw [firstError_eq_find?]
    refine ⟨exists_isFirst, fun ⟨a, ha⟩ => ?_⟩
    cases hfind : t.preorder.find? isError with
    | none =>
      have := List.find?_eq_none.1 hfind n (mem_preorder.2 (within_of_at? ha.at_eq))
      exact absurd ha.isError this
    | some m =>
      obtain ⟨b, hb⟩ := exists_isFirst hfind
      rw [hb.eq ha]
  · rw [firstError_eq_find?, List.find?_eq_none]
    simp only [Bool.not_eq_true]

end Scaffold.Source.SyntaxTree
