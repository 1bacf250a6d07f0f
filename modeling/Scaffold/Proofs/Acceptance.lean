/-
  Which specifications are given to the templates: `build_acceptance`.

  A specification is refused for the first name of an operation that stands before
  (`RepeatedFirst`), else for such a name of a type, else for the first operation that refers to an
  unknown type (`UnknownFirst`). `firstRepeated_eq_some` and `unknownReference_eq_some` say what the
  two searches find, wherever they start, and `build_cases` puts them in their order. An accepted
  specification is shown as it is (`shows_assemble`).
-/
import Mathlib
import Scaffold.Proofs.Partition

namespace Scaffold.Context

/-! ## Repeated names -/

/-- The name at the first place of a list whose name stands before it. -/
def RepeatedFirst (names : List String) (n : String) : Prop :=
  ∃ before after, names = before ++ n :: after ∧ n ∈ before ∧ before.Nodup

/-- The search among names of which some were seen already. -/
theorem firstRepeated_eq_some {seen names : List String} {n : String} :
    firstRepeated seen names = some n ↔
      ∃ before after, names = before ++ n :: after ∧ (n ∈ before ∨ n ∈ seen) ∧ before.Nodup ∧
        ∀ m ∈ before, m ∉ seen := by
  induction names generalizing seen with
  | nil => simp [firstRepeated]
  | cons m names ih =>
    rw [firstRepeated]
    by_cases hm : m ∈ seen
    · rw [if_pos (List.contains_iff_mem.2 hm)]
      constructor
      · rintro ⟨⟩
        exact ⟨[], names, rfl, Or.inr hm, List.nodup_nil, by simp⟩
      · rintro ⟨before, after, he, -, -, hseen⟩
        cases before with
        | nil => cases he; rfl
        | cons k before =>
          cases he
          exact absurd hm (hseen m (List.mem_cons_self ..))
    · -- the name is passed over, and is one of those seen from here on
      rw [if_neg (mt List.contains_iff_mem.1 hm), ih]
      constructor
      · rintro ⟨before, after, rfl, hn, hd, hseen⟩
        refine ⟨m :: before, after, rfl, ?_, List.nodup_cons.2 ⟨fun hmem => ?_, hd⟩, ?_⟩
        · simp only [List.mem_cons] at hn ⊢
          tauto
        · exact hseen m hmem (List.mem_cons_self ..)
        · rintro k hk hks
          rcases List.mem_cons.1 hk with rfl | hk
          · exact hm hks
          · exact hseen k hk (List.mem_cons_of_mem _ hks)
      · rintro ⟨before, after, he, hn, hd, hseen⟩
        cases before with
        | nil =>
          cases he
          rcases hn with hn | hn
          · cases hn
          · exact absurd hn hm
        | cons k before =>
          cases he
          rw [List.nodup_cons] at hd
          refine ⟨before, after, rfl, ?_, hd.2, fun k hk hks => ?_⟩
          · simp only [List.mem_cons] at hn ⊢
            tauto
          · rcases List.mem_cons.1 hks with rfl | hks
            · exact hd.1 hk
            · exact hseen k (List.mem_cons_of_mem _ hk) hks

theorem firstRepeated_iff {names : List String} {n : String} :
    firstRepeated [] names = some n ↔ RepeatedFirst names n := by
  simp [firstRepeated_eq_some, RepeatedFirst]

theorem firstRepeated_none_iff {names : List String} :
    firstRepeated [] names = none ↔ names.Nodup := by
  simp [firstRepeated_eq_none]

theorem exists_repeatedFirst {names : List String} :
    (∃ n, RepeatedFirst names n) ↔ ¬ names.Nodup := by
  rw [← firstRepeated_none_iff, ← ne_eq, Option.ne_none_iff_exists']
  simp only [firstRepeated_iff]

/-! ## References -/

/-- The names of the scalar types. -/
def scalarNames : List String :=
  ["string", "number", "integer", "boolean", "any", "unknown", "object", "null", "undefined",
    "bigint"]

/-- Every language spells every scalar. -/
theorem scalars_eq (l : Language) : l.scalars.map Prod.fst = scalarNames := by
  cases l <;> rfl

/-- What an operation of a specification may refer to. -/
def Known (s : Specification) (type : String) : Prop :=
  type = "any" ∨ type ∈ scalarNames ∨ type ∈ s.typeNames

/-- An operation that refers to known types only. -/
def RefersToKnown (s : Specification) (o : Operation) : Prop :=
  Known s o.inputType ∧ Known s o.outputType

/-- The unknown type that an operation refers to; its input comes before its output. -/
def RefersToUnknown (s : Specification) (o : Operation) (type : String) : Prop :=
  ¬ Known s o.inputType ∧ type = o.inputType ∨
    Known s o.inputType ∧ ¬ Known s o.outputType ∧ type = o.outputType

/-- The first operation that refers to an unknown type, and the type. -/
def UnknownFirst (s : Specification) (o : Operation) (type : String) : Prop :=
  ∃ before after, s.operations = before ++ o :: after ∧ (∀ p ∈ before, RefersToKnown s p) ∧
    RefersToUnknown s o type

theorem isKnown_iff {s : Specification} {type : String} :
    isKnown s.typeNames type = true ↔ Known s type := by
  have hscalar : isScalar type = true ↔ type ∈ scalarNames := by
    rw [← scalars_eq .typescript, isScalar, List.any_eq_true, List.mem_map]
    simp only [beq_iff_eq]
  simp only [isKnown, Bool.or_eq_true, hscalar, List.contains_iff_mem, Known, beq_iff_eq, untyped,
    or_assoc]

section References

variable {s : Specification} {o : Operation} {ops : List Operation} {type type' : String}

theorem RefersToUnknown.unique (h : RefersToUnknown s o type) (h' : RefersToUnknown s o type') :
    type = type' := by
  rcases h with ⟨hin, rfl⟩ | ⟨hin, -, rfl⟩ <;> rcases h' with ⟨hin', rfl⟩ | ⟨hin', -, rfl⟩
  · rfl
  · exact absurd hin' hin
  · exact absurd hin hin'
  · rfl

theorem RefersToUnknown.not_known (h : RefersToUnknown s o type) : ¬ RefersToKnown s o := by
  rintro ⟨hin, hout⟩
  rcases h with ⟨h, -⟩ | ⟨-, h, -⟩
  · exact h hin
  · exact h hout

/-- The search passes an operation over, or ends at it. -/
theorem unknownReference_cons (s : Specification) (o : Operation) (ops : List Operation) :
    (RefersToKnown s o ∧
      unknownReference s.typeNames (o :: ops) = unknownReference s.typeNames ops) ∨
    ∃ type, RefersToUnknown s o type ∧
      unknownReference s.typeNames (o :: ops) = some (o, type) := by
  rw [unknownReference]
  by_cases hin : Known s o.inputType
  · by_cases hout : Known s o.outputType
    · exact Or.inl ⟨⟨hin, hout⟩, by rw [isKnown_iff.2 hin, isKnown_iff.2 hout]; rfl⟩
    · refine Or.inr ⟨_, Or.inr ⟨hin, hout, rfl⟩, ?_⟩
      rw [isKnown_iff.2 hin, Bool.eq_false_iff.2 (mt isKnown_iff.1 hout)]
      rfl
  · refine Or.inr ⟨_, Or.inl ⟨hin, rfl⟩, ?_⟩
    rw [Bool.eq_false_iff.2 (mt isKnown_iff.1 hin)]
    rfl

theorem unknownReference_eq_none :
    unknownReference s.typeNames ops = none ↔ ∀ o ∈ ops, RefersToKnown s o := by
  induction ops with
  | nil => simp [unknownReference]
  | cons o ops ih =>
    rw [List.forall_mem_cons]
    rcases unknownReference_cons s o ops with ⟨ho, he⟩ | ⟨type, ho, he⟩
    · rw [he, ih, and_iff_right ho]
    · rw [he]
      exact iff_of_false (by simp) fun h => ho.not_known h.1

theorem unknownReference_eq_some :
    unknownReference s.typeNames ops = some (o, type) ↔
      ∃ before after, ops = before ++ o :: after ∧ (∀ p ∈ before, RefersToKnown s p) ∧
        RefersToUnknown s o type := by
  induction ops with
  | nil => simp [unknownReference]
  | cons p ops ih =>
    rcases unknownReference_cons s p ops with ⟨hp, he⟩ | ⟨type', hp, he⟩
    · rw [he, ih]
      constructor
      · rintro ⟨before, after, rfl, hbefore, ho⟩
        exact ⟨p :: before, after, rfl, List.forall_mem_cons.2 ⟨hp, hbefore⟩, ho⟩
      · rintro ⟨before, after, heq, hbefore, ho⟩
        cases before with
        | nil => cases heq; exact absurd hp ho.not_known
        | cons q before =>
          cases heq
          exact ⟨before, after, rfl, (List.forall_mem_cons.1 hbefore).2, ho⟩
    · rw [he]
      constructor
      · rintro ⟨⟩
        exact ⟨[], ops, rfl, by simp, hp⟩
      · rintro ⟨before, after, heq, hbefore, ho⟩
        cases before with
        | nil => cases heq; rw [hp.unique ho]
        | cons q before =>
          cases heq
          exact absurd (hbefore p (List.mem_cons_self ..)) hp.not_known

theorem exists_unknownFirst :
    (∃ o type, UnknownFirst s o type) ↔ ¬ ∀ o ∈ s.operations, RefersToKnown s o := by
  rw [← unknownReference_eq_none, ← ne_eq, Option.ne_none_iff_exists', Prod.exists]
  simp only [unknownReference_eq_some, UnknownFirst]

end References

/-! ## Refusals -/

/-- The failure of a name that repeats. -/
def duplicate (kind name : String) : Failure :=
  .coded ⟨"AXE-M003", "Duplicate " ++ kind ++ " name: " ++ name, some [(kind, .str name)]⟩ none

/-- The failure of an operation that refers to an unknown type. -/
def unknownType (operation type : String) : Failure :=
  .coded ⟨"AXE-M002", "Operation " ++ operation ++ " references unknown type: " ++ type,
    some [("operation", .str operation), ("type", .str type)]⟩ none

/-- The reasons to refuse a specification in their order, each with its failure. -/
theorem build_cases (s : Specification) (c : Config) :
    (∃ n, RepeatedFirst s.operationNames n ∧ build s c = .error (duplicate "operation" n)) ∨
    s.operationNames.Nodup ∧
      ((∃ n, RepeatedFirst s.typeNames n ∧ build s c = .error (duplicate "type" n)) ∨
      s.typeNames.Nodup ∧
        ((∃ o type, UnknownFirst s o type ∧ build s c = .error (unknownType o.name type)) ∨
        (∀ o ∈ s.operations, RefersToKnown s o) ∧ build s c = .ok (assemble c s))) := by
  unfold build refusal?
  cases hops : firstRepeated [] s.operationNames with
  | some n => exact Or.inl ⟨n, firstRepeated_iff.1 hops, rfl⟩
  | none =>
    refine Or.inr ⟨firstRepeated_none_iff.1 hops, ?_⟩
    cases htypes : firstRepeated [] s.typeNames with
    | some n => exact Or.inl ⟨n, firstRepeated_iff.1 htypes, rfl⟩
    | none =>
      refine Or.inr ⟨firstRepeated_none_iff.1 htypes, ?_⟩
      cases href : unknownReference s.typeNames s.operations with
      | some r => exact Or.inl ⟨r.1, r.2, unknownReference_eq_some.1 href, rfl⟩
      | none => exact Or.inr ⟨unknownReference_eq_none.1 href, rfl⟩

/-! ## What is shown -/

/-- The entry of an operation. -/
structure OperationEntry.Shows (e : OperationEntry) (o : Operation) : Prop where
  name : e.name = o.name
  description : e.description = o.description
  inputType : e.inputTypeName = o.inputType
  outputType : e.outputTypeName = o.outputType
  required : e.required = o.required

/-- The entry of a field. -/
structure FieldEntry.Shows (e : FieldEntry) (f : Field) : Prop where
  name : e.name = f.name
  type : e.type = f.type
  required : e.required = f.required
  repeated : e.repeated = f.repeated
  description : e.description = f.description

/-- The entry of a type, with the entries of its fields in their order. -/
structure TypeEntry.Shows (e : TypeEntry) (t : RecordType) : Prop where
  name : e.name = t.name
  description : e.description = t.description
  fields : List.Forall₂ FieldEntry.Shows e.fields t.fields

/-- A context has the operations and types of a specification in their order, and counts them. -/
structure Shows (x : Context) (s : Specification) : Prop where
  operations : List.Forall₂ OperationEntry.Shows x.operations s.operations
  types : List.Forall₂ TypeEntry.Shows x.types s.types
  operationCount : x.operationCount = x.operations.length
  typeCount : x.typeCount = x.types.length

theorem shows_assemble (c : Config) (s : Specification) : Shows (assemble c s) s where
  operations := by
    refine List.forall₂_map_left_iff.2 (List.forall₂_same.2 fun o _ => ?_)
    exact ⟨rfl, rfl, rfl, rfl, rfl⟩
  types := by
    refine List.forall₂_map_left_iff.2 (List.forall₂_same.2 fun t _ => ⟨rfl, rfl, ?_⟩)
    refine List.forall₂_map_left_iff.2 (List.forall₂_same.2 fun f _ => ?_)
    exact ⟨rfl, rfl, rfl, rfl, rfl⟩
  operationCount := rfl
  typeCount := rfl

/-! ## Acceptance -/

theorem RepeatedFirst.unique {names : List String} {n m : String} (hn : RepeatedFirst names n)
    (hm : RepeatedFirst names m) : n = m :=
  Option.some.inj ((firstRepeated_iff.2 hn).symm.trans (firstRepeated_iff.2 hm))

theorem UnknownFirst.unique {s : Specification} {o p : Operation} {type type' : String}
    (ho : UnknownFirst s o type) (hp : UnknownFirst s p type') : o = p ∧ type = type' :=
  Prod.mk.inj (Option.some.inj
    ((unknownReference_eq_some.2 ho).symm.trans (unknownReference_eq_some.2 hp)))

theorem not_nodup_of_repeatedFirst {names : List String} {n : String} (h : RepeatedFirst names n) :
    ¬ names.Nodup :=
  exists_repeatedFirst.1 ⟨n, h⟩

theorem duplicate_inj {kind kind' n n' : String} (h : duplicate kind n = duplicate kind' n') :
    kind = kind' ∧ n = n' := by
  simp only [duplicate, Failure.coded.injEq, CodedError.mk.injEq, Option.some.injEq,
    List.cons.injEq, Prod.mk.injEq, Json.str.injEq] at h
  exact h.1.2.2.1

theorem unknownType_inj {name name' type type' : String}
    (h : unknownType name type = unknownType name' type') : name = name' ∧ type = type' := by
  simp only [unknownType, Failure.coded.injEq, CodedError.mk.injEq, Option.some.injEq,
    List.cons.injEq, Prod.mk.injEq, Json.str.injEq, true_and, and_true] at h
  exact h.2

theorem duplicate_ne_unknownType {kind n name type : String} :
    duplicate kind n ≠ unknownType name type := by
  simp [duplicate, unknownType]

section Build

variable {s : Specification} {c : Config}

theorem build_duplicate_operation {n : String} :
    build s c = .error (duplicate "operation" n) ↔ RepeatedFirst s.operationNames n := by
  constructor
  · intro he
    rcases build_cases s c with ⟨m, hm, hb⟩ | ⟨-, ⟨m, -, hb⟩ | ⟨-, ⟨o, type, -, hb⟩ | ⟨-, hb⟩⟩⟩ <;>
      rw [he] at hb
    · rw [(duplicate_inj (Except.error.inj hb)).2]
      exact hm
    · exact absurd (duplicate_inj (Except.error.inj hb)).1 (by decide)
    · exact absurd (Except.error.inj hb) duplicate_ne_unknownType
    · cases hb
  · intro hn
    rcases build_cases s c with ⟨m, hm, hb⟩ | ⟨hnodup, -⟩
    · rw [hb, hn.unique hm]
    · exact absurd hnodup (not_nodup_of_repeatedFirst hn)

theorem build_duplicate_type {n : String} :
    build s c = .error (duplicate "type" n) ↔
      s.operationNames.Nodup ∧ RepeatedFirst s.typeNames n := by
  constructor
  · intro he
    rcases build_cases s c with
      ⟨m, -, hb⟩ | ⟨hops, ⟨m, hm, hb⟩ | ⟨-, ⟨o, type, -, hb⟩ | ⟨-, hb⟩⟩⟩ <;> rw [he] at hb
    · exact absurd (duplicate_inj (Except.error.inj hb)).1 (by decide)
    · rw [(duplicate_inj (Except.error.inj hb)).2]
      exact ⟨hops, hm⟩
    · exact absurd (Except.error.inj hb) duplicate_ne_unknownType
    · cases hb
  · rintro ⟨hops, hn⟩
    rcases build_cases s c with ⟨m, hm, -⟩ | ⟨-, ⟨m, hm, hb⟩ | ⟨hnodup, -⟩⟩
    · exact absurd hops (not_nodup_of_repeatedFirst hm)
    · rw [hb, hn.unique hm]
    · exact absurd hnodup (not_nodup_of_repeatedFirst hn)

theorem build_unknownType {name type : String} :
    build s c = .error (unknownType name type) ↔
      s.operationNames.Nodup ∧ s.typeNames.Nodup ∧ ∃ o, UnknownFirst s o type ∧ o.name = name := by
  constructor
  · intro he
    rcases build_cases s c with
      ⟨m, -, hb⟩ | ⟨hops, ⟨m, -, hb⟩ | ⟨htypes, ⟨o, type', ho, hb⟩ | ⟨-, hb⟩⟩⟩ <;> rw [he] at hb
    · exact absurd (Except.error.inj hb).symm duplicate_ne_unknownType
    · exact absurd (Except.error.inj hb).symm duplicate_ne_unknownType
    · obtain ⟨rfl, rfl⟩ := unknownType_inj (Except.error.inj hb)
      exact ⟨hops, htypes, o, ho, rfl⟩
    · cases hb
  · rintro ⟨hops, htypes, o, ho, rfl⟩
    rcases build_cases s c with
      ⟨m, hm, -⟩ | ⟨-, ⟨m, hm, -⟩ | ⟨-, ⟨p, type', hp, hb⟩ | ⟨hknown, -⟩⟩⟩
    · exact absurd hops (not_nodup_of_repeatedFirst hm)
    · exact absurd htypes (not_nodup_of_repeatedFirst hm)
    · obtain ⟨rfl, rfl⟩ := ho.unique hp
      exact hb
    · exact absurd hknown (exists_unknownFirst.1 ⟨o, type, ho⟩)

theorem build_ok_iff {x : Context} :
    build s c = .ok x ↔ (s.operationNames.Nodup ∧ s.typeNames.Nodup ∧
      ∀ o ∈ s.operations, RefersToKnown s o) ∧ x = assemble c s := by
  rcases build_cases s c with
    ⟨n, hn, hb⟩ | ⟨hops, ⟨n, hn, hb⟩ | ⟨htypes, ⟨o, type, ho, hb⟩ | ⟨hknown, hb⟩⟩⟩ <;> rw [hb]
  · exact iff_of_false (by simp) fun h => not_nodup_of_repeatedFirst hn h.1.1
  · exact iff_of_false (by simp) fun h => not_nodup_of_repeatedFirst hn h.1.2.1
  · exact iff_of_false (by simp) fun h => exists_unknownFirst.1 ⟨o, type, ho⟩ h.1.2.2
  · rw [and_iff_right ⟨hops, htypes, hknown⟩, Except.ok.injEq, eq_comm]

end Build

/-- **Which specifications are accepted.** A specification is refused with `AXE-M003` for the first
    name of an operation that stands before, else for such a name of a type, else with `AXE-M002`
    for the first operation that refers to an unknown type; each of these is so exactly if there is
    such a name or operation. Otherwise there is a context: in it no name of an operation or a type
    repeats, operations refer to known types, and all stands in the order of the specification. -/
theorem build_acceptance (s : Specification) (c : Config) :
    (∀ n, build s c = .error (duplicate "operation" n) ↔ RepeatedFirst s.operationNames n) ∧
    ((∃ n, RepeatedFirst s.operationNames n) ↔ ¬ s.operationNames.Nodup) ∧
    (∀ n, build s c = .error (duplicate "type" n) ↔
      s.operationNames.Nodup ∧ RepeatedFirst s.typeNames n) ∧
    ((∃ n, RepeatedFirst s.typeNames n) ↔ ¬ s.typeNames.Nodup) ∧
    (∀ name type, build s c = .error (unknownType name type) ↔
      s.operationNames.Nodup ∧ s.typeNames.Nodup ∧ ∃ o, UnknownFirst s o type ∧ o.name = name) ∧
    ((∃ o type, UnknownFirst s o type) ↔ ¬ ∀ o ∈ s.operations, RefersToKnown s o) ∧
    ((∃ x, build s c = .ok x) ↔ s.operationNames.Nodup ∧ s.typeNames.Nodup ∧
      ∀ o ∈ s.operations, RefersToKnown s o) ∧
    (∀ x, build s c = .ok x →
      (x.operations.map OperationEntry.name).Nodup ∧ (x.types.map TypeEntry.name).Nodup ∧
      (∀ e ∈ x.operations, Known s e.inputTypeName ∧ Known s e.outputTypeName) ∧ Shows x s) := by
  refine ⟨fun _ => build_duplicate_operation, exists_repeatedFirst, fun _ => build_duplicate_type,
    exists_repeatedFirst, fun _ _ => build_unknownType, exists_unknownFirst, ?_, fun x hx => ?_⟩
  · simp only [build_ok_iff, exists_and_left, exists_eq, and_true]
  · obtain ⟨⟨hops, htypes, hknown⟩, rfl⟩ := build_ok_iff.1 hx
    refine ⟨?_, ?_, ?_, shows_assemble c s⟩
    · rw [Generator.operationNames_assemble]
      exact hops
    · have hnames : (assemble c s).types.map TypeEntry.name = s.typeNames := by
        simp [assemble, Specification.typeNames, typeEntry, Function.comp_def]
      rw [hnames]
      exact htypes
    · intro e he
      obtain ⟨o, ho, rfl⟩ := List.mem_map.1 he
      exact hknown o ho

end Scaffold.Context
