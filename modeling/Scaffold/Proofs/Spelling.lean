/-
  The types of operations and fields, by the nodes they are read from.

  The type of a field has the name of the node at the end of the way down the parts that name it
  (`nameNode`, `resolve_eq_ownName`), and those of an operation are the words of the first two
  arguments of a reference (`argumentsSeen`, `operationOf_eq`). `collect_spelled` says this of all
  that a source declares.
-/
import Mathlib
import Scaffold.Proofs.Verdict
import Scaffold.Proofs.Walk

namespace Scaffold.Contract

open Source SyntaxTree

variable {t u : SyntaxTree} {c : Conventions}

/-! ## The node that names a type -/

/-- The node that gives a type its name, at the end of the way down the parts that name it. -/
def nameNode (t : SyntaxTree) : SyntaxTree :=
  match _ : namePart t with
  | none => t
  | some u => nameNode u
termination_by t.size
decreasing_by exact size_lt_of_namePart ‹_›

theorem nameNode_of_none (h : namePart t = none) : nameNode t = t := by
  rw [nameNode]
  split <;> simp_all

theorem nameNode_of_some (h : namePart t = some u) : nameNode t = nameNode u := by
  rw [nameNode]
  split <;> simp_all

/-- The name that a node gives: that of a reference is without the arguments, and that of a literal
    is the scalar it is a value of. -/
def ownName (t : SyntaxTree) : String :=
  if t.kind == .genericType then nameOf t
  else if t.kind == .literalType then literalScalar (wording t)
  else wording t

/-- What the name of a node is read from: for a reference it is a part of the node. -/
def naming (t : SyntaxTree) : Option SyntaxTree :=
  if t.kind == .genericType then t.child? .name else some t

theorem resolve_of_namePart (h : t.IsText) (hp : namePart t = none) (ha : t.kind ≠ .arrayType)
    (hu : t.kind ≠ .unionType) : resolve t = .ok (ownName t) := by
  rw [resolve_eq, ownName, spelled_eq h]
  by_cases hw : isWrapper t.kind = true
  · have hg : t.kind ≠ .genericType := by rintro hk; rw [hk] at hw; cases hw
    have hl : t.kind ≠ .literalType := by rintro hk; rw [hk] at hw; cases hw
    rw [namePart_eq_head? (by simp [isNamedByPart, hw])] at hp
    simp [hw, hp, hg, hl]
  by_cases hg : t.kind = .genericType
  · have hname : referenceName t = .ok (nameOf t) := by
      rw [referenceName, if_pos (beq_iff_eq.2 hg), nameOf]
      cases hn : t.child? .name with
      | none => rfl
      | some n => exact spelled_eq (isText_of_child? h hn)
    have harray : isArrayReference t = .ok false := by
      rw [isArrayReference_eq h hg]
      simp only [namePart, isNamedByPart, isWrapper, hg] at hp
      cases hn : (t.child? .name).map wording == some "Array" with
      | false => rfl
      | true =>
        simp only [hn] at hp
        have hargs : typeArgumentsOf t = [] := List.head?_eq_none_iff.1 (by simpa using hp)
        simp [hargs]
    simp [hg, isWrapper, harray, hname, Except.bind]
  by_cases hl : t.kind = .literalType
  · simp [hl, isWrapper, Except.map]
  · simp [hw, ha, hg, hu, hl]

/-- **A type without a fault has the name of the node at the end of its parts.** -/
theorem resolve_eq_ownName (h : t.IsText) (hok : ∀ f, ¬ FaultOf t f) :
    resolve t = .ok (ownName (nameNode t)) := by
  induction hsize : t.size using Nat.strong_induction_on generalizing t with
  | _ n ih =>
    subst hsize
    have hres := resolved h
    generalize hr : resolve t = r at hres
    cases hres with
    | text hp ha hu _ => rw [nameNode_of_none hp, ← hr, resolve_of_namePart h hp ha hu]
    | noPart hk hcs => exact absurd (.noPart hk hcs) (hok _)
    | nameless hk hc hn => exact absurd (.nameless hk hc hn) (hok _)
    | @part u hp hn =>
      rw [nameNode_of_some hp]
      exact ih u.size (size_lt_of_namePart hp) (isText_of_namePart h hp)
        (fun f hf => hok f (.inPart hp hn hf)) rfl

theorem isText_nameNode (h : t.IsText) : (nameNode t).IsText := by
  induction hsize : t.size using Nat.strong_induction_on generalizing t with
  | _ n ih =>
    subst hsize
    cases hp : namePart t with
    | none => rw [nameNode_of_none hp]; exact h
    | some u =>
      rw [nameNode_of_some hp]
      exact ih u.size (size_lt_of_namePart hp) (isText_of_namePart h hp) rfl

theorem nameNode_unwrap (t : SyntaxTree) : nameNode (unwrap t) = nameNode t := by
  induction t using SyntaxTree.induct with
  | h t ih =>
    rw [unwrap_eq]
    split
    · next hw =>
      cases hc : t.namedChildren.head? with
      | none => rfl
      | some c =>
        have hp : namePart t = some c := by
          rw [namePart_eq_head? (by simp [isNamedByPart, hw]), hc]
        rw [nameNode_of_some hp]
        exact ih c (mem_children_of_namedChildren (List.mem_of_head? hc))
    · rfl

/-! ## Operations -/

/-- What an operation of a type is read from: the first two arguments of a reference. -/
def firstArguments (type : SyntaxTree) : Option (List SyntaxTree) :=
  if isReference type.kind then some ((typeArgumentsOf type).take 2) else none

/-- What the operation that a property declares is read from. -/
def argumentsSeen (p : SyntaxTree) : Option (List SyntaxTree) := (memberType p).bind firstArguments

/-- The word at a place of a list of arguments. -/
def argumentWord (args : List SyntaxTree) (i : Nat) : String := (args[i]?.map wording).getD untyped

/-- The words of the first two arguments. -/
def argumentWords (args : List SyntaxTree) : String × String :=
  (argumentWord args 0, argumentWord args 1)

theorem argumentWords_take (args : List SyntaxTree) :
    argumentWords (args.take 2) = argumentWords args := by
  simp [argumentWords, argumentWord]

theorem argumentText_eq {args : List SyntaxTree} (h : ∀ t ∈ args, t.IsText) (i : Nat) :
    argumentText args i = .ok (argumentWord args i) := by
  unfold argumentText argumentWord
  cases ha : args[i]? with
  | none => rfl
  | some t => exact read_eq (h t (List.mem_of_getElem? ha))

/-- An operation by what it is read from. -/
theorem operationOf_eq {m : Option SyntaxTree × SyntaxTree} (h : PairIsText m) :
    ∃ description, operationOf c m =
        .ok (((argumentsSeen m.2).map argumentWords).toList.map fun words =>
          { name := memberNameOf m.2, description, inputType := words.1, outputType := words.2,
            required := !isOptional m.2 }) ∧
      describe m.1 (c.descriptionStart ++ " " ++ memberNameOf m.2 ++ " operation") =
        .ok description := by
  obtain ⟨d, hd⟩ := describe_ok h.2
    (c.descriptionStart ++ " " ++ memberNameOf m.2 ++ " operation")
  refine ⟨d, ?_, hd⟩
  unfold operationOf argumentsSeen
  cases htype : memberType m.2 with
  | none => rfl
  | some type =>
    by_cases hr : isReference type.kind = true
    · have hargs : ∀ t ∈ typeArgumentsOf type, t.IsText := fun t ht =>
        isText_of_typeArgumentsOf (isText_of_memberType h.1 htype) ht
      obtain ⟨h₀, h₁⟩ := Prod.mk.inj (argumentWords_take (typeArgumentsOf type))
      simp [firstArguments, hr, memberName_eq h.1, hd, argumentText_eq hargs, argumentWords, h₀, h₁,
        bind, Except.bind]
    · simp [firstArguments, hr]

/-! ## Fields -/

/-- What the type of the field that a property declares is read from. -/
def nameSeen (p : SyntaxTree) : Option SyntaxTree :=
  (memberType p).bind fun type => naming (nameNode type)

/-- The name of the type of a field. -/
def typeWord (p : SyntaxTree) : String :=
  ((memberType p).map fun type => ownName (nameNode type)).getD untyped

/-- A field by what it is read from. -/
theorem fieldOf_eq {m : Option SyntaxTree × SyntaxTree} (h : PairIsText m) (type : String)
    (hno : ∀ f, ¬ FieldFault m.2 f) :
    ∃ repeated description, fieldOf type m = .ok
        { name := memberNameOf m.2, type := typeWord m.2, required := !isOptional m.2, repeated,
          description } ∧
      fieldRepeated (memberType m.2) = .ok repeated ∧
      describe m.1 (memberNameOf m.2 ++ " field") = .ok description := by
  obtain ⟨d, hd⟩ := describe_ok h.2 (memberNameOf m.2 ++ " field")
  unfold fieldOf typeWord
  cases htype : memberType m.2 with
  | none =>
    refine ⟨false, d, ?_, rfl, hd⟩
    simp [memberName_eq h.1, fieldType, fieldRepeated, hd, bind, Except.bind]
  | some u =>
    have hu := isText_of_memberType h.1 htype
    obtain ⟨b, hb⟩ := isRepeated_ok hu
    have hr := resolve_eq_ownName hu fun f hf => hno f ⟨u, htype, hf⟩
    refine ⟨b, d, ?_, hb, hd⟩
    simp [memberName_eq h.1, fieldType, fieldRepeated, hr, hb, hd, bind, Except.bind]

theorem noFault_of_fieldOf {m : Option SyntaxTree × SyntaxTree} (h : PairIsText m) {type : String}
    {field : Field} (hf : fieldOf type m = .ok field) (f : TypeFault) : ¬ FieldFault m.2 f := by
  rcases fieldOf_cases h type with ⟨_, _, _, hno⟩ | ⟨_, _, he⟩
  · exact hno f
  · rw [hf] at he
    cases he

/-! ## Interfaces -/

/-- What the operations that an interface declares are read from. -/
def argumentsIn (c : Conventions) (t : SyntaxTree) : List (Option (List SyntaxTree)) :=
  if nameOf t == c.operationsInterface then (properties t).map fun m => argumentsSeen m.2 else []

/-- What the types of the fields that an interface declares are read from. -/
def namesIn (c : Conventions) (t : SyntaxTree) : List (Option SyntaxTree) :=
  (fieldsOf c t).map fun p => nameSeen p.2

/-- Findings in which the types of operations and fields are the words of what they are read from
    in these interfaces. -/
structure Spelled (c : Conventions) (ds : List SyntaxTree) (part : Findings) : Prop where
  operations : part.operations.map (fun o => (o.inputType, o.outputType)) =
    (ds.flatMap (argumentsIn c)).reduceOption.map argumentWords
  fields : (part.types.flatMap RecordType.fields).map Field.type =
    (ds.flatMap (fieldsOf c)).map fun p => typeWord p.2

theorem Spelled.append {ds es : List SyntaxTree} {a b : Findings} (ha : Spelled c ds a)
    (hb : Spelled c es b) : Spelled c (ds ++ es) (a.append b) where
  operations := by
    simp [Findings.append, ha.operations, hb.operations, List.reduceOption_append]
  fields := by simp [Findings.append, ha.fields, hb.fields]

theorem readEach_map_eq {α β γ : Type} {f : α → Except ReadFault β} {g : β → γ} {h : α → γ}
    {as : List α} {bs : List β} (hf : ∀ a ∈ as, ∀ b, f a = .ok b → g b = h a)
    (hbs : readEach f as = .ok bs) : bs.map g = as.map h := by
  induction as generalizing bs with
  | nil =>
    cases hbs
    rfl
  | cons a as ih =>
    rw [readEach] at hbs
    cases hb : f a with
    | error e => rw [hb] at hbs; cases hbs
    | ok b =>
      cases hrest : readEach f as with
      | error e => rw [hb, hrest] at hbs; cases hbs
      | ok rest =>
        rw [hb, hrest] at hbs
        cases hbs
        rw [List.map_cons, List.map_cons, hf a (List.mem_cons_self ..) b hb,
          ih (fun x hx => hf x (List.mem_cons_of_mem a hx)) hrest]

section Members

variable {name : String} {ms : List (Option SyntaxTree × SyntaxTree)}

theorem readOperations_words (h : ∀ m ∈ ms, PairIsText m) {ops : List Operation}
    (hops : readOperations c name ms = .ok ops) :
    ops.map (fun o => (o.inputType, o.outputType)) =
      (if name == c.operationsInterface then ms.map fun m => argumentsSeen m.2
        else []).reduceOption.map argumentWords := by
  unfold readOperations at hops
  split at hops
  · next hname =>
    cases hread : readEach (operationOf c) ms with
    | error e => rw [hread] at hops; cases hops
    | ok opss =>
      rw [hread] at hops
      cases hops
      have hwords : opss.map (List.map fun o => (o.inputType, o.outputType)) =
          ms.map fun m => ((argumentsSeen m.2).map argumentWords).toList := by
        refine readEach_map_eq (fun m hm ops hops => ?_) hread
        obtain ⟨d, hok, -⟩ := operationOf_eq (c := c) (h m hm)
        rw [hops] at hok
        cases hok
        simp [Function.comp_def]
      rw [if_pos hname, List.map_flatten, hwords, ← List.reduceOption_map, List.map_map,
        List.reduceOption, List.filterMap_map, List.filterMap_eq_flatMap_toList, List.flatMap_def]
      rfl
  · next hname =>
    cases hops
    simp [hname]

theorem readTyped_words (h : ∀ m ∈ ms, PairIsText m) {previous : Option SyntaxTree}
    {typed : Findings} (htyped : readTyped c previous name ms = .ok typed) :
    (typed.types.flatMap RecordType.fields).map Field.type =
      if isTypeName c name then ms.map fun m => typeWord m.2 else [] := by
  unfold readTyped at htyped
  unfold isTypeName
  split at htyped
  · next hname =>
    cases hread : readEach (fieldOf name) ms with
    | error e => rw [hread] at htyped; cases htyped
    | ok fields =>
      have hwords : fields.map Field.type = ms.map fun m => typeWord m.2 := by
        refine readEach_map_eq (fun m hm field hf => ?_) hread
        obtain ⟨b, d, hok, -⟩ := fieldOf_eq (h m hm) name (noFault_of_fieldOf (h m hm) hf)
        rw [hf] at hok
        cases hok
        rfl
      rw [if_pos hname, ← hwords]
      rw [hread] at htyped
      simp only [Except.bind] at htyped
      split at htyped
      · next hempty =>
        cases htyped
        rw [List.isEmpty_iff.1 hempty]
        rfl
      · cases hd : describe previous (c.descriptionStart ++ " " ++ name) with
        | error e => rw [hd] at htyped; cases htyped
        | ok d =>
          rw [hd] at htyped
          cases htyped
          simp
  · next hname =>
    cases htyped
    rw [if_neg hname]
    rfl

end Members

theorem interfaceFindings_ok_iff (h : t.IsText) {previous : Option SyntaxTree} {part : Findings} :
    interfaceFindings c previous t = .ok part ↔ ∃ operations typed capabilities,
      readOperations c (nameOf t) (properties t) = .ok operations ∧
      readTyped c previous (nameOf t) (properties t) = .ok typed ∧
      readCapabilities c (nameOf t) (properties t) = .ok capabilities ∧
      part = { typed with operations, capabilities } := by
  rw [interfaceFindings_eq, childText_name h]
  simp only [Except.bind]
  cases readOperations c (nameOf t) (properties t) with
  | error e => simp
  | ok operations =>
    cases readTyped c previous (nameOf t) (properties t) with
    | error e => simp
    | ok typed =>
      cases readCapabilities c (nameOf t) (properties t) with
      | error e => simp
      | ok capabilities => simp [eq_comm]

theorem interfaceFindings_spelled (h : t.IsText) {previous : Option SyntaxTree} {part : Findings}
    (hpart : interfaceFindings c previous t = .ok part) : Spelled c [t] part := by
  have hms : ∀ m ∈ properties t, PairIsText m := fun m hm => pairIsText_properties h hm
  obtain ⟨ops, typed, caps, hops, htyped, -, rfl⟩ := (interfaceFindings_ok_iff h).1 hpart
  constructor
  · simpa [argumentsIn] using readOperations_words hms hops
  · rw [readTyped_words hms htyped]
    simp only [List.flatMap_singleton, fieldsOf]
    split <;> simp

/-! ## Sources -/

theorem findings_spelled {m : Option SyntaxTree × SyntaxTree} (h : m.2.IsText) {part : Findings}
    (hpart : findings c m = .ok part) : Spelled c (interfaces [m]) part := by
  have htext : (unwrapExport m.2).IsText := every_unwrapExport h
  simp only [findings, interfaces, List.map_cons, List.map_nil] at hpart ⊢
  by_cases hv : (unwrapExport m.2).kind = .variableDeclaration
  · simp only [hv, beq_self_eq_true, if_true] at hpart
    cases hversion : findVersion c (unwrapExport m.2).namedChildren with
    | error e => rw [hversion] at hpart; cases hpart
    | ok version =>
      rw [hversion] at hpart
      cases hpart
      exact ⟨by simp [hv], by simp [hv]⟩
  by_cases hi : (unwrapExport m.2).kind = .interfaceDeclaration
  · simp only [hi, List.filter_cons, List.filter_nil] at hpart ⊢
    exact interfaceFindings_spelled htext hpart
  · simp only [beq_iff_eq, hv, hi, if_false] at hpart
    cases hpart
    exact ⟨by simp [hi], by simp [hi]⟩

theorem isText_topLevel (h : t.IsText) {m : Option SyntaxTree × SyntaxTree}
    (hm : m ∈ topLevel t) : m.2.IsText :=
  (forall_withPrevious (fun _ hu => h.child hu) (List.mem_filter.1 hm).1).1

/-- **All types that a source declares are the words of what they are read from.** -/
theorem collect_spelled {ms : List (Option SyntaxTree × SyntaxTree)} (h : ∀ m ∈ ms, m.2.IsText)
    {ds : List SyntaxTree} {found all : Findings} (hfound : Spelled c ds found)
    (hall : collect c found ms = (all, none)) : Spelled c (ds ++ interfaces ms) all := by
  induction ms generalizing ds found with
  | nil =>
    cases hall
    simpa [interfaces] using hfound
  | cons m ms ih =>
    rw [collect] at hall
    cases hpart : findings c m with
    | error f => rw [hpart] at hall; cases hall
    | ok part =>
      rw [hpart] at hall
      have hspelled := findings_spelled (h m (List.mem_cons_self ..)) hpart
      rw [interfaces_cons, ← List.append_assoc]
      exact ih (fun x hx => h x (List.mem_cons_of_mem m hx)) (hfound.append hspelled) hall

end Scaffold.Contract
