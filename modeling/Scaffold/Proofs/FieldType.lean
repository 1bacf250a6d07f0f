/-
  Which types have no name: `resolve_error_iff`.

  A type takes its name from one of its parts, that part from one of its own, and so on down to a
  type that is named by its text (`namePart`). The name fails to exist for a fault on that way:
  an array or a union without parts, or a union whose first alternative names nothing
  (`FaultOf`); the outermost fault counts.
-/
import Mathlib
import Scaffold.Contract.FieldType
import Scaffold.Proofs.Trees

namespace Scaffold.Contract

open Source

/-! ## The text of nodes -/

/-- The text of a node as a string, empty when it has surrogates. -/
def wording (t : SyntaxTree) : String := t.text.toString?.getD ""

variable {t u : SyntaxTree}

theorem spelling_eq (h : t.IsText) : t.spelling = .ok (wording t) := by
  obtain ⟨s, hs⟩ := Text.exists_ofString h.self
  simp only [SyntaxTree.spelling, wording, hs, Text.toString?_ofString, Option.getD_some]

theorem spelled_eq (h : t.IsText) : spelled t = .ok (wording t) := by
  rw [spelled, spelling_eq h]

theorem mem_children_of_namedChildren (h : u ∈ t.namedChildren) : u ∈ t.children :=
  (List.mem_filter.1 h).1

theorem mem_children_of_child? {r : Role} (h : t.child? r = some u) : u ∈ t.children :=
  List.mem_of_find?_eq_some h

theorem isText_of_namedChildren (h : t.IsText) (hu : u ∈ t.namedChildren) : u.IsText :=
  h.child (mem_children_of_namedChildren hu)

theorem isText_of_child? {r : Role} (h : t.IsText) (hu : t.child? r = some u) : u.IsText :=
  h.child (mem_children_of_child? hu)

/-! ## Types by their parts -/

/-- Parentheses, `readonly`, arrays and unions take their name from their first part. -/
def isNamedByPart (k : Kind) : Bool := isWrapper k || k == .arrayType || k == .unionType

/-- The part of a type that the type takes its name from; `Array` is named by its argument. -/
def namePart (t : SyntaxTree) : Option SyntaxTree :=
  if isNamedByPart t.kind then t.namedChildren.head?
  else if t.kind == .genericType && (t.child? .name).map wording == some "Array" then
    (typeArgumentsOf t).head?
  else none

theorem unwrapFirst_eq (whole : SyntaxTree) (cs : List SyntaxTree) :
    unwrapFirst whole cs = (((cs.filter SyntaxTree.isNamed).head?).map unwrap).getD whole := by
  induction cs with
  | nil => rfl
  | cons c cs ih =>
    rw [unwrapFirst, List.filter_cons]
    split
    · rfl
    · exact ih

theorem unwrap_eq (t : SyntaxTree) :
    unwrap t = if isWrapper t.kind then (t.namedChildren.head?.map unwrap).getD t else t := by
  cases t with
  | node k r s x cs =>
    rw [unwrap, unwrapFirst_eq]
    rfl

theorem resolveFirst_eq (other : Except TypeFault String) (cs : List SyntaxTree) :
    resolveFirst other cs = (((cs.filter SyntaxTree.isNamed).head?).map resolve).getD other := by
  induction cs with
  | nil => rfl
  | cons c cs ih =>
    rw [resolveFirst, List.filter_cons]
    split
    · rfl
    · exact ih

theorem resolveArgument_eq (cs : List SyntaxTree) :
    resolveArgument cs = ((cs.find? fun c => c.role == some .typeArguments).map
      fun args => resolveFirst (.error .shapeless) args.children).getD (.error .shapeless) := by
  induction cs with
  | nil => rfl
  | cons c cs ih =>
    cases c with
    | node k r s x args =>
      have hrole : (SyntaxTree.node k r s x args).role = r := rfl
      rw [resolveArgument, List.find?_cons, hrole]
      cases r == some .typeArguments with
      | true => rfl
      | false => exact ih

/-- The name of a type by the parts of the type. -/
theorem resolve_eq (t : SyntaxTree) :
    resolve t =
      if isWrapper t.kind then (t.namedChildren.head?.map resolve).getD (spelled t)
      else if t.kind == .arrayType then
        (t.namedChildren.head?.map resolve).getD (.error .shapeless)
      else if t.kind == .genericType then
        (isArrayReference t).bind fun isArray =>
          if isArray then ((typeArgumentsOf t).head?.map resolve).getD (.error .shapeless)
          else referenceName t
      else if t.kind == .unionType then
        (t.namedChildren.head?.map fun first =>
          (checkAlternative (unwrap first)).bind fun _ => resolve first).getD (.error .shapeless)
      else if t.kind == .literalType then (spelled t).map literalScalar
      else spelled t := by
  cases t with
  | node k r s x cs =>
    rw [resolve]
    simp only [resolveFirst_eq, resolveArgument_eq, SyntaxTree.kind]
    refine ite_congr rfl (fun _ => rfl) fun _ => ite_congr rfl (fun _ => rfl) fun _ =>
      ite_congr rfl (fun hk => ?_) fun _ => ite_congr rfl (fun _ => ?_) fun _ => rfl
    · have hargs : typeArgumentsOf (.node k r s x cs) =
          ((cs.find? fun c => c.role == some .typeArguments).map
            SyntaxTree.namedChildren).getD [] := by
        have hkind : (SyntaxTree.node k r s x cs).kind = k := rfl
        rw [typeArgumentsOf, hkind, if_pos hk, SyntaxTree.child?, SyntaxTree.children]
        cases cs.find? fun c => c.role == some .typeArguments <;> rfl
      rw [hargs]
      cases isArrayReference (.node k r s x cs) with
      | error f => rfl
      | ok b =>
        cases b with
        | false => rfl
        | true => cases cs.find? fun c => c.role == some .typeArguments <;> rfl
    · rw [SyntaxTree.namedChildren, SyntaxTree.children]
      cases cs.filter SyntaxTree.isNamed with
      | nil => rfl
      | cons first rest =>
        simp only [List.head?_cons, Option.map_some, Option.getD_some]
        cases checkAlternative (unwrap first) <;> rfl

theorem isText_of_typeArgumentsOf (h : t.IsText) (hu : u ∈ typeArgumentsOf t) : u.IsText := by
  unfold typeArgumentsOf at hu
  split at hu
  · split at hu
    · next args ha => exact isText_of_namedChildren (isText_of_child? h ha) hu
    · cases hu
  · cases hu

theorem namePart_eq_head? (hk : isNamedByPart t.kind = true) :
    namePart t = t.namedChildren.head? := by
  rw [namePart, if_pos hk]

theorem namePart_of_union (hk : t.kind = .unionType) : namePart t = t.namedChildren.head? :=
  namePart_eq_head? (by rw [hk]; rfl)

theorem namePart_of_noPart (hk : t.kind = .arrayType ∨ t.kind = .unionType)
    (hcs : t.namedChildren = []) : namePart t = none := by
  have hk' : isNamedByPart t.kind = true := by
    rcases hk with hk | hk <;> rw [hk] <;> rfl
  rw [namePart_eq_head? hk', hcs]
  rfl

theorem isText_of_namePart (h : t.IsText) (hu : namePart t = some u) : u.IsText := by
  unfold namePart at hu
  split at hu
  · exact isText_of_namedChildren h (List.mem_of_head? hu)
  · split at hu
    · exact isText_of_typeArgumentsOf h (List.mem_of_head? hu)
    · cases hu

theorem size_lt_of_typeArgumentsOf (hu : u ∈ typeArgumentsOf t) : u.size < t.size := by
  unfold typeArgumentsOf at hu
  split at hu
  · split at hu
    · next args ha =>
      exact (SyntaxTree.size_lt_of_mem (mem_children_of_namedChildren hu)).trans
        (SyntaxTree.size_lt_of_mem (mem_children_of_child? ha))
    · cases hu
  · cases hu

theorem size_lt_of_namePart (hu : namePart t = some u) : u.size < t.size := by
  unfold namePart at hu
  split at hu
  · exact SyntaxTree.size_lt_of_mem (mem_children_of_namedChildren (List.mem_of_head? hu))
  · split at hu
    · exact size_lt_of_typeArgumentsOf (List.mem_of_head? hu)
    · cases hu

theorem isText_unwrap (h : t.IsText) : (unwrap t).IsText := by
  induction t using SyntaxTree.induct with
  | h t ih =>
    rw [unwrap_eq]
    split
    · cases hc : t.namedChildren.head? with
      | none => exact h
      | some c =>
        have hm := mem_children_of_namedChildren (List.mem_of_head? hc)
        exact ih c hm (h.child hm)
    · exact h

/-! ## Types without a name -/

/-- The first alternative of a union, out of its parentheses, that names nothing. -/
def Nameless (t : SyntaxTree) : Prop :=
  t.kind ≠ .unionType ∧ (t.kind = .objectType ∨ t.kind = .functionType ∨
    t.kind = .constructorType ∨ wording t ∈ emptyWords)

/-- Why a type has no name: the outermost fault on the way down the parts that name it. -/
inductive FaultOf : SyntaxTree → TypeFault → Prop
  | noPart {t : SyntaxTree} : t.kind = .arrayType ∨ t.kind = .unionType →
      t.namedChildren = [] → FaultOf t .shapeless
  | nameless {t first : SyntaxTree} : t.kind = .unionType → t.namedChildren.head? = some first →
      Nameless (unwrap first) → FaultOf t (.unresolved (wording (unwrap first)))
  | inPart {t u : SyntaxTree} {f : TypeFault} : namePart t = some u →
      (t.kind = .unionType → ¬ Nameless (unwrap u)) → FaultOf u f → FaultOf t f

/-- The texts of a tree of text can be read, so only the shape of a type is at fault. -/
theorem FaultOf.cases {f : TypeFault} (h : FaultOf t f) :
    f = .shapeless ∨ ∃ text, f = .unresolved text := by
  induction h with
  | noPart => exact Or.inl rfl
  | nameless => exact Or.inr ⟨_, rfl⟩
  | inPart _ _ _ ih => exact ih

theorem FaultOf.unique {f g : TypeFault} (hf : FaultOf t f) (hg : FaultOf t g) : f = g := by
  induction hf with
  | noPart hk hcs =>
    cases hg with
    | noPart => rfl
    | nameless _ hc _ => rw [hcs] at hc; cases hc
    | inPart hp _ _ =>
      rw [namePart_of_noPart hk hcs] at hp
      cases hp
  | nameless hk hc hn =>
    cases hg with
    | noPart _ hcs => rw [hcs] at hc; cases hc
    | nameless _ hc' _ => rw [hc] at hc'; cases hc'; rfl
    | inPart hp hn' _ =>
      rw [namePart_of_union hk, hc] at hp
      cases hp
      exact absurd hn (hn' hk)
  | inPart hp hn _ ih =>
    cases hg with
    | noPart hk hcs =>
      rw [namePart_of_noPart hk hcs] at hp
      cases hp
    | nameless hk hc hn' =>
      rw [namePart_of_union hk, hc] at hp
      cases hp
      exact absurd hn' (hn hk)
    | inPart hp' _ hg =>
      rw [hp] at hp'
      cases hp'
      exact ih hg

theorem checkAlternative_eq (h : t.IsText) :
    (Nameless t ∧ checkAlternative t = .error (.unresolved (wording t))) ∨
      (¬ Nameless t ∧ checkAlternative t = .ok ()) := by
  unfold checkAlternative isNameable Nameless
  rw [spelled_eq h]
  by_cases hk : t.kind = .unionType
  · simp [hk]
  by_cases ho : t.kind = .objectType ∨ t.kind = .functionType ∨ t.kind = .constructorType
  · rcases ho with ho | ho | ho <;> simp [ho]
  · simp only [not_or] at ho
    by_cases he : wording t ∈ emptyWords <;> simp [hk, ho, he, Except.map]

theorem referenceName_ok (h : t.IsText) : ∃ s, referenceName t = .ok s := by
  unfold referenceName
  split
  · split
    · next n hn => exact ⟨_, spelled_eq (isText_of_child? h hn)⟩
    · exact ⟨_, rfl⟩
  · exact ⟨_, spelled_eq h⟩

theorem isArrayReference_eq (h : t.IsText) (hk : t.kind = .genericType) :
    isArrayReference t =
      .ok ((t.child? .name).map wording == some "Array" && !(typeArgumentsOf t).isEmpty) := by
  unfold isArrayReference referenceName
  simp only [hk, beq_self_eq_true, if_true]
  cases hn : t.child? .name with
  | none => rfl
  | some n =>
    simp only [spelled_eq (isText_of_child? h hn)]
    rfl

/-- What `resolve` does with a type: take its text, fail, or go on with the part that names it. -/
inductive Resolved (t : SyntaxTree) : Except TypeFault String → Prop
  | text {r : Except TypeFault String} : namePart t = none → t.kind ≠ .arrayType →
      t.kind ≠ .unionType → (∃ s, r = .ok s) → Resolved t r
  | noPart : t.kind = .arrayType ∨ t.kind = .unionType → t.namedChildren = [] →
      Resolved t (.error .shapeless)
  | nameless {u : SyntaxTree} : t.kind = .unionType → t.namedChildren.head? = some u →
      Nameless (unwrap u) → Resolved t (.error (.unresolved (wording (unwrap u))))
  | part {u : SyntaxTree} : namePart t = some u → (t.kind = .unionType → ¬ Nameless (unwrap u)) →
      Resolved t (resolve u)

theorem resolved (h : t.IsText) : Resolved t (resolve t) := by
  rw [resolve_eq]
  by_cases hw : isWrapper t.kind = true
  · have ha : t.kind ≠ .arrayType := by rintro hk; rw [hk] at hw; cases hw
    have hu : t.kind ≠ .unionType := by rintro hk; rw [hk] at hw; cases hw
    have hpart := namePart_eq_head? (t := t) (by simp [isNamedByPart, hw])
    rw [if_pos hw]
    cases hc : t.namedChildren.head? with
    | none => exact .text (hpart.trans hc) ha hu ⟨_, spelled_eq h⟩
    | some u => exact .part (hpart.trans hc) fun hk => absurd hk hu
  rw [if_neg hw]
  by_cases ha : t.kind = .arrayType
  · have hpart := namePart_eq_head? (t := t) (by simp [isNamedByPart, ha])
    rw [if_pos (beq_iff_eq.2 ha)]
    cases hc : t.namedChildren.head? with
    | none => exact .noPart (Or.inl ha) (List.head?_eq_none_iff.1 hc)
    | some u => exact .part (hpart.trans hc) fun hk => absurd (ha.symm.trans hk) (by decide)
  rw [if_neg (by simpa using ha)]
  by_cases hg : t.kind = .genericType
  · have hu : t.kind ≠ .unionType := by simp [hg]
    have hpart : namePart t = if (t.child? .name).map wording == some "Array" then
        (typeArgumentsOf t).head? else none := by
      simp only [namePart, hg, beq_self_eq_true, Bool.true_and]
      rfl
    rw [if_pos (beq_iff_eq.2 hg), isArrayReference_eq h hg]
    cases hn : (t.child? .name).map wording == some "Array" with
    | false =>
      rw [hn] at hpart
      exact .text hpart ha hu (referenceName_ok h)
    | true =>
      rw [hn] at hpart
      cases ht : typeArgumentsOf t with
      | nil => exact .text (by rw [hpart, ht]; rfl) ha hu (referenceName_ok h)
      | cons u rest => exact .part (by rw [hpart, ht]; rfl) fun hk => absurd hk hu
  rw [if_neg (by simpa using hg)]
  by_cases hu : t.kind = .unionType
  · rw [if_pos (beq_iff_eq.2 hu)]
    cases hc : t.namedChildren.head? with
    | none => exact .noPart (Or.inr hu) (List.head?_eq_none_iff.1 hc)
    | some u =>
      have htext := isText_unwrap (isText_of_namedChildren h (List.mem_of_head? hc))
      simp only [Option.map_some, Option.getD_some]
      rcases checkAlternative_eq htext with ⟨hn, he⟩ | ⟨hn, he⟩
      · rw [he]
        exact .nameless hu hc hn
      · rw [he]
        exact .part ((namePart_of_union hu).trans hc) fun _ => hn
  rw [if_neg (by simpa using hu)]
  refine .text ?_ ha hu ?_
  · rw [namePart, if_neg (by simp [isNamedByPart, hw, ha, hu]), if_neg (by simp [hg])]
  · rw [spelled_eq h]
    split <;> exact ⟨_, rfl⟩

theorem faultOf_of_resolve {f : TypeFault} (h : t.IsText) (hr : resolve t = .error f) :
    FaultOf t f := by
  induction hsize : t.size using Nat.strong_induction_on generalizing t with
  | _ n ih =>
    subst hsize
    have hres := resolved h
    generalize resolve t = r at hres hr
    cases hres with
    | text _ _ _ hs =>
      obtain ⟨s, hs⟩ := hs
      rw [hs] at hr
      cases hr
    | noPart hk hcs =>
      cases hr
      exact .noPart hk hcs
    | nameless hk hc hn =>
      cases hr
      exact .nameless hk hc hn
    | @part u hp hn =>
      exact .inPart hp hn
        (ih u.size (size_lt_of_namePart hp) (isText_of_namePart h hp) hr rfl)

theorem resolve_of_faultOf {f : TypeFault} (h : t.IsText) (hf : FaultOf t f) :
    ∃ g, resolve t = .error g := by
  induction hf with
  | @noPart t hk hcs =>
    have hres := resolved h
    generalize resolve t = r at hres ⊢
    cases hres with
    | text _ ha hu _ =>
      rcases hk with hk | hk
      · exact absurd hk ha
      · exact absurd hk hu
    | noPart => exact ⟨_, rfl⟩
    | nameless => exact ⟨_, rfl⟩
    | part hp =>
      rw [namePart_of_noPart hk hcs] at hp
      cases hp
  | @nameless t first hk hc hn =>
    have hres := resolved h
    generalize resolve t = r at hres ⊢
    cases hres with
    | text _ _ hu _ => exact absurd hk hu
    | noPart => exact ⟨_, rfl⟩
    | nameless => exact ⟨_, rfl⟩
    | part hp hn' =>
      rw [namePart_of_union hk, hc] at hp
      cases hp
      exact absurd hn (hn' hk)
  | @inPart t _ _ hp hn _ ih =>
    have hres := resolved h
    generalize resolve t = r at hres ⊢
    cases hres with
    | text hp' =>
      rw [hp] at hp'
      cases hp'
    | noPart => exact ⟨_, rfl⟩
    | nameless => exact ⟨_, rfl⟩
    | part hp' =>
      rw [hp] at hp'
      cases hp'
      exact ih (isText_of_namePart h hp)

/-- **A type has no name exactly for a fault on the way to it.** -/
theorem resolve_error_iff (h : t.IsText) (f : TypeFault) :
    resolve t = .error f ↔ FaultOf t f := by
  refine ⟨faultOf_of_resolve h, fun hf => ?_⟩
  obtain ⟨g, hg⟩ := resolve_of_faultOf h hf
  rw [hg, hf.unique (faultOf_of_resolve h hg)]

/-- Whether a type is an array can always be told. -/
theorem isRepeated_ok (h : t.IsText) : ∃ b, isRepeated t = .ok b := by
  have hu := isText_unwrap h
  unfold isRepeated isArray
  split
  · exact ⟨true, rfl⟩
  by_cases hk : (unwrap t).kind = .genericType
  · exact ⟨_, isArrayReference_eq hu hk⟩
  · exact ⟨false, by simp [isArrayReference, hk]⟩

end Scaffold.Contract
