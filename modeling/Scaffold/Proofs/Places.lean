/-
  What is read out of a tree does not depend on where its nodes start: `findings_unplaced`.

  `unplaced` forgets the starts of all nodes. Kinds, roles, texts and the order of children stay, so
  each reader either commutes with it or does not see it. The trees of two sources that differ in
  one place only have the same nodes elsewhere, up to their starts.
-/
import Mathlib
import Scaffold.Proofs.Declarations

namespace Scaffold

open Source

namespace Source.SyntaxTree

mutual

/-- A tree with all its nodes at the start of the source. -/
def unplaced : SyntaxTree → SyntaxTree
  | node k r _ x cs => node k r 0 x (unplacedAll cs)

/-- Trees with all their nodes at the start of the source. -/
def unplacedAll : List SyntaxTree → List SyntaxTree
  | [] => []
  | t :: ts => unplaced t :: unplacedAll ts

end

theorem unplacedAll_eq (ts : List SyntaxTree) : unplacedAll ts = ts.map unplaced := by
  induction ts with
  | nil => rfl
  | cons t ts ih => rw [unplacedAll, ih, List.map_cons]

variable (t : SyntaxTree)

@[simp] theorem kind_unplaced : t.unplaced.kind = t.kind := by
  cases t
  rfl

@[simp] theorem role_unplaced : t.unplaced.role = t.role := by
  cases t
  rfl

@[simp] theorem text_unplaced : t.unplaced.text = t.text := by
  cases t
  rfl

@[simp] theorem children_unplaced : t.unplaced.children = t.children.map unplaced := by
  cases t
  rw [unplaced, children, unplacedAll_eq, children]

@[simp] theorem isNamed_unplaced : t.unplaced.isNamed = t.isNamed := by
  rw [isNamed, kind_unplaced, isNamed]

@[simp] theorem namedChildren_unplaced :
    t.unplaced.namedChildren = t.namedChildren.map unplaced := by
  simp [namedChildren, List.filter_map, Function.comp_def]

@[simp] theorem child?_unplaced (r : Role) : t.unplaced.child? r = (t.child? r).map unplaced := by
  simp [child?, List.find?_map]

theorem broken_unplaced : t.unplaced.Broken ↔ t.Broken := by
  induction t using SyntaxTree.induct with
  | h t ih =>
    rw [broken_iff, broken_iff, isError, kind_unplaced, children_unplaced, ← isError]
    simp only [List.mem_map, exists_exists_and_eq_and]
    exact or_congr Iff.rfl (exists_congr fun c => and_congr_right fun hc => ih c hc)

theorem isText_unplaced (h : t.IsText) : t.unplaced.IsText := by
  induction t using SyntaxTree.induct with
  | h t ih =>
    refine every_iff.2 ⟨(text_unplaced t).symm ▸ h.self, ?_⟩
    rw [children_unplaced, List.forall_mem_map]
    exact fun c hc => ih c hc (h.child hc)

@[simp] theorem spelling_unplaced : t.unplaced.spelling = t.spelling := by
  rw [spelling, text_unplaced, spelling]

end Source.SyntaxTree

namespace Contract

open SyntaxTree

variable (t : SyntaxTree) (c : Conventions)

/-! ## Types -/

@[simp] theorem spelled_unplaced : spelled t.unplaced = spelled t := by
  rw [spelled, spelling_unplaced, spelled]

@[simp] theorem unwrap_unplaced : unwrap t.unplaced = (unwrap t).unplaced := by
  induction t using induct with
  | h t ih =>
    rw [unwrap_eq, unwrap_eq t, kind_unplaced, namedChildren_unplaced]
    split
    · cases hc : t.namedChildren.head? with
      | none => simp [hc]
      | some d => simp [hc, ih d (mem_children_of_namedChildren (List.mem_of_head? hc))]
    · rfl

@[simp] theorem typeArgumentsOf_unplaced :
    typeArgumentsOf t.unplaced = (typeArgumentsOf t).map unplaced := by
  unfold typeArgumentsOf
  rw [kind_unplaced, child?_unplaced]
  split
  · cases t.child? .typeArguments <;> simp
  · rfl

@[simp] theorem referenceName_unplaced : referenceName t.unplaced = referenceName t := by
  unfold referenceName
  rw [kind_unplaced, child?_unplaced, spelled_unplaced]
  split
  · cases t.child? .name <;> simp
  · rfl

@[simp] theorem isArrayReference_unplaced : isArrayReference t.unplaced = isArrayReference t := by
  simp [isArrayReference]

@[simp] theorem isRepeated_unplaced : isRepeated t.unplaced = isRepeated t := by
  simp [isRepeated, isArray]

@[simp] theorem checkAlternative_unplaced : checkAlternative t.unplaced = checkAlternative t := by
  simp [checkAlternative, isNameable]

theorem head?_map_unplaced {α : Type} {g : SyntaxTree → α} {ts : List SyntaxTree}
    (h : ∀ u ∈ ts, g u.unplaced = g u) : (ts.map unplaced).head?.map g = ts.head?.map g := by
  cases ts with
  | nil => rfl
  | cons u ts =>
    simp only [List.map_cons, List.head?_cons, Option.map_some]
    rw [h u (List.mem_cons_self ..)]

@[simp] theorem resolve_unplaced : resolve t.unplaced = resolve t := by
  induction hn : t.size using Nat.strong_induction_on generalizing t with
  | _ n ih =>
    subst hn
    have hnamed : ∀ u ∈ t.namedChildren, resolve u.unplaced = resolve u := fun u hu =>
      ih u.size (size_lt_of_mem (mem_children_of_namedChildren hu)) u rfl
    have hargs : ∀ u ∈ typeArgumentsOf t, resolve u.unplaced = resolve u := fun u hu =>
      ih u.size (size_lt_of_typeArgumentsOf hu) u rfl
    have hunion := head?_map_unplaced
      (g := fun u => (checkAlternative (unwrap u)).bind fun _ => resolve u) (fun u hu => by
        rw [unwrap_unplaced, checkAlternative_unplaced, hnamed u hu])
    rw [resolve_eq, resolve_eq t]
    simp only [kind_unplaced, namedChildren_unplaced, spelled_unplaced, isArrayReference_unplaced,
      typeArgumentsOf_unplaced, referenceName_unplaced, head?_map_unplaced hnamed,
      head?_map_unplaced hargs, hunion]

@[simp] theorem fieldType_unplaced (t : Option SyntaxTree) :
    fieldType (t.map unplaced) = fieldType t := by
  cases t <;> simp [fieldType]

@[simp] theorem fieldRepeated_unplaced (t : Option SyntaxTree) :
    fieldRepeated (t.map unplaced) = fieldRepeated t := by
  cases t <;> simp [fieldRepeated]

/-! ## Members -/

@[simp] theorem read_unplaced : read t.unplaced = read t := by
  rw [read, spelling_unplaced, read]

@[simp] theorem childText_unplaced (r : Role) : childText r t.unplaced = childText r t := by
  unfold childText
  rw [child?_unplaced]
  cases t.child? r <;> simp

@[simp] theorem memberName_unplaced : memberName t.unplaced = memberName t := by
  simp [memberName]

@[simp] theorem memberType_unplaced : memberType t.unplaced = (memberType t).map unplaced := by
  unfold memberType
  rw [child?_unplaced]
  cases t.child? .type with
  | none => rfl
  | some a =>
    simp only [Option.map_some, kind_unplaced, namedChildren_unplaced]
    split <;> simp

@[simp] theorem isOptional_unplaced : isOptional t.unplaced = isOptional t := by
  simp [isOptional, List.any_map, Function.comp_def]

@[simp] theorem describe_unplaced (previous : Option SyntaxTree) (other : String) :
    describe (previous.map unplaced) other = describe previous other := by
  cases previous <;> simp [describe, docOf]

@[simp] theorem argumentText_unplaced (args : List SyntaxTree) (i : Nat) :
    argumentText (args.map unplaced) i = argumentText args i := by
  unfold argumentText
  rw [List.getElem?_map]
  cases args[i]? <;> simp

/-- A node and its elder sibling at the start of the source. -/
def unplacedPair (m : Option SyntaxTree × SyntaxTree) : Option SyntaxTree × SyntaxTree :=
  (m.1.map unplaced, m.2.unplaced)

variable (m : Option SyntaxTree × SyntaxTree)

@[simp] theorem operationOf_unplaced : operationOf c (unplacedPair m) = operationOf c m := by
  unfold operationOf unplacedPair
  rw [memberType_unplaced]
  cases memberType m.2 <;> simp

@[simp] theorem fieldOf_unplaced (type : String) :
    fieldOf type (unplacedPair m) = fieldOf type m := by
  simp [fieldOf, unplacedPair]

@[simp] theorem capabilityOf_unplaced : capabilityOf c (unplacedPair m) = capabilityOf c m := by
  simp [capabilityOf, unplacedPair]

@[simp] theorem readEach_map {α β γ : Type} (f : β → Except ReadFault γ) (g : α → β)
    (as : List α) : readEach f (as.map g) = readEach (fun a => f (g a)) as := by
  induction as with
  | nil => rfl
  | cons a as ih => rw [List.map_cons, readEach, ih, readEach]

theorem withPrevious_unplaced (previous : Option SyntaxTree) (ts : List SyntaxTree) :
    withPrevious (previous.map unplaced) (ts.map unplaced) =
      (withPrevious previous ts).map unplacedPair := by
  induction ts generalizing previous with
  | nil => rfl
  | cons t ts ih =>
    rw [List.map_cons, withPrevious, withPrevious, List.map_cons, ← ih]
    rfl

/-! ## Declarations -/

@[simp] theorem properties_unplaced :
    properties t.unplaced = (properties t).map unplacedPair := by
  unfold properties
  rw [child?_unplaced]
  cases t.child? .body with
  | none => rfl
  | some body =>
    have hprev := withPrevious_unplaced none body.children
    simp only [Option.map_none] at hprev
    simp only [Option.map_some, kind_unplaced, children_unplaced, hprev, List.filter_map]
    split
    · simp [Function.comp_def, unplacedPair]
    · rfl

theorem pieces_unplaced (ts : List SyntaxTree) : pieces (ts.map unplaced) = pieces ts := by
  induction ts with
  | nil => rfl
  | cons t ts ih => rw [List.map_cons, pieces, ih, pieces, kind_unplaced, read_unplaced]

@[simp] theorem stringValue_unplaced : stringValue t.unplaced = stringValue t := by
  rw [stringValue, namedChildren_unplaced, pieces_unplaced, stringValue]

@[simp] theorem versionValue_unplaced :
    versionValue t.unplaced = (versionValue t).map unplaced := by
  unfold versionValue
  rw [child?_unplaced]
  cases t.child? .value with
  | none => rfl
  | some v =>
    simp only [Option.map_some, kind_unplaced, namedChildren_unplaced]
    split
    · cases v.namedChildren <;> simp [Option.filter]
    · simp [Option.filter]

theorem findVersion_unplaced (ts : List SyntaxTree) :
    findVersion c (ts.map unplaced) = findVersion c ts := by
  induction ts with
  | nil => rfl
  | cons t ts ih =>
    rw [List.map_cons, findVersion, findVersion, ih, kind_unplaced, childText_unplaced,
      versionValue_unplaced]
    cases childText .name t with
    | error f => rfl
    | ok name =>
      by_cases hname : name = c.versionConstant
      · cases versionValue t <;> simp [hname, bind, Except.bind]
      · simp [hname, bind, Except.bind]

theorem interfaceFindings_unplaced (previous : Option SyntaxTree) :
    interfaceFindings c (previous.map unplaced) t.unplaced = interfaceFindings c previous t := by
  simp [interfaceFindings_eq, readOperations, readTyped, readCapabilities]

@[simp] theorem unwrapExport_unplaced : unwrapExport t.unplaced = (unwrapExport t).unplaced := by
  unfold unwrapExport
  rw [kind_unplaced, child?_unplaced]
  split
  · cases t.child? .declaration <;> rfl
  · rfl

/-- **What a declaration contributes does not depend on its place.** -/
theorem findings_unplaced : findings c (unplacedPair m) = findings c m := by
  simp [findings, unplacedPair, findVersion_unplaced, interfaceFindings_unplaced]

end Contract

end Scaffold
