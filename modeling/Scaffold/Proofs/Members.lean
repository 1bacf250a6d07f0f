/-
  Members and interfaces with a comment inside a type.

  Of the type of a property, an operation is read from the first two arguments (`argumentsSeen`) and
  a field from the node that names it (`nameSeen`). A comment that was put before a type is one of
  these, or shows in the text of one of these, or does not matter. This is said of one property
  (`operationOf_commented`, `fieldOf_commented`) and then of all properties of an interface
  (`interfaceFindings_commented`). A comment inside a property does not describe the next one, which
  is why members are compared without elder siblings that are no comments (`described`).
-/
import Scaffold.Proofs.Comments

namespace Scaffold.Contract

open Source SyntaxTree

variable {k t t' : SyntaxTree} {c : Conventions}

/-! ## Members with a comment -/

theorem memberType_found (hk : IsBlockComment k) (h : Commented k t t') :
    memberType t' = memberType t ∨
      ∃ u u', memberType t = some u ∧ memberType t' = some u' ∧ Found k u u' := by
  unfold memberType
  rcases h.child? hk .type with hsame | ⟨-, a, a', ha, ha', hin⟩
  · rw [hsame]; exact Or.inl rfl
  · rw [ha, ha']
    simp only [hin.kind_eq]
    split
    · exact Or.inr (hin.namedChildren hk).head?
    · exact Or.inr ⟨a, a', rfl, rfl, .inside hin⟩

theorem memberNameOf_commented (hk : IsBlockComment k) (h : Commented k t t') :
    memberNameOf t' = memberNameOf t := by
  rw [memberNameOf, nameOf, h.child?_name hk, memberNameOf, nameOf]

theorem isOptional_commented (hk : IsBlockComment k) (h : Commented k t t') :
    isOptional t' = isOptional t := by
  have htoken {c : SyntaxTree} (hc : c.isNamed = true) : (c.kind == .token) = false := by
    simpa [SyntaxTree.isNamed] using hc
  unfold isOptional
  cases h with
  | before _ _ hc => simp [children, htoken hc, htoken hk.isNamed]
  | inside _ _ hc _ h => simp [children, htoken hc, htoken (h.isNamed_eq.trans hc)]

/-! ### Operations -/

/-- The words of the first two arguments tell the arguments apart. -/
theorem Among.words_eq_iff (hk : IsBlockComment k) {l l' : List SyntaxTree} (h : Among k l l')
    (ht : ∀ t ∈ l, t.IsText) (ht' : ∀ t ∈ l', t.IsText)
    (hfresh : (argumentWords l).1 ≠ wording k ∧ (argumentWords l).2 ≠ wording k) :
    argumentWords l' = argumentWords l ↔ l'.take 2 = l.take 2 := by
  constructor
  · intro hwords
    obtain ⟨h₀, h₁⟩ := Prod.mk.inj hwords
    cases h with
    | before pre c post =>
      match pre with
      | [] => exact absurd h₀.symm hfresh.1
      | [p] => exact absurd h₁.symm hfresh.2
      | p :: q :: pre => rfl
    | @inside pre c c' post h =>
      have hne := h.wording_ne hk (ht c (by simp)) (ht' c' (by simp))
      match pre with
      | [] => exact absurd h₀ hne
      | [p] => exact absurd h₁ hne
      | p :: q :: pre => rfl
  · intro htake
    rw [← argumentWords_take l', htake, argumentWords_take l]

theorem Found.words_eq_iff (hk : IsBlockComment k) (h : Found k t t') (ht : t.IsText)
    (ht' : t'.IsText) (hfresh : ∀ words ∈ (firstArguments t).map argumentWords,
      words.1 ≠ wording k ∧ words.2 ≠ wording k) :
    (firstArguments t').map argumentWords = (firstArguments t).map argumentWords ↔
      firstArguments t' = firstArguments t := by
  cases h with
  | same => simp
  | comment =>
    -- the comment refers to nothing
    have hnone : firstArguments k = none := by simp [firstArguments, hk.kind, isReference]
    rw [hnone, Option.map_none, eq_comm, Option.map_eq_none_iff, eq_comm]
  | inside hin =>
    unfold firstArguments at hfresh ⊢
    rw [hin.kind_eq]
    split
    · next hr =>
      rcases typeArgumentsOf_among hk hin with hsame | hamong
      · simp [hsame]
      · simp only [hr, if_true, Option.map_some, Option.mem_some_iff, forall_eq',
          argumentWords_take] at hfresh
        simp only [Option.map_some, Option.some.injEq, argumentWords_take]
        exact hamong.words_eq_iff hk (fun v hv => isText_of_typeArgumentsOf ht hv)
          (fun v hv => isText_of_typeArgumentsOf ht' hv) hfresh
    · simp

/-- An operation is the same exactly if it is read from the same arguments. -/
theorem operationOf_commented {q : Option SyntaxTree} (hk : IsBlockComment k)
    (h : Commented k t t') (ht : PairIsText (q, t)) (ht' : PairIsText (q, t')) :
    ∃ ops ops', operationOf c (q, t) = .ok ops ∧ operationOf c (q, t') = .ok ops' ∧
      ((∀ o ∈ ops, o.inputType ≠ wording k ∧ o.outputType ≠ wording k) →
        (ops' = ops ↔ argumentsSeen t' = argumentsSeen t)) := by
  obtain ⟨d, hops, hd⟩ := operationOf_eq (c := c) ht
  obtain ⟨d', hops', hd'⟩ := operationOf_eq (c := c) ht'
  simp only [memberNameOf_commented hk h, isOptional_commented hk h] at hops' hd'
  obtain rfl : d' = d := Except.ok.inj (hd'.symm.trans hd)
  refine ⟨_, _, hops, hops', fun hfresh => ⟨fun heq => ?_, fun heq => by rw [heq]⟩⟩
  rcases memberType_found hk h with hsame | ⟨u, u', hu, hu', hfound⟩
  · rw [argumentsSeen, hsame, argumentsSeen]
  · have hwords : (argumentsSeen t').map argumentWords = (argumentsSeen t).map argumentWords := by
      cases hw : (argumentsSeen t).map argumentWords <;>
        cases hw' : (argumentsSeen t').map argumentWords <;>
          simp_all [Prod.ext_iff]
    have hfresh' : ∀ words ∈ (argumentsSeen t).map argumentWords,
        words.1 ≠ wording k ∧ words.2 ≠ wording k := fun words hw =>
      hfresh _ (List.mem_map_of_mem (Option.mem_toList.2 hw))
    simp only [argumentsSeen, hu, hu', Option.bind_some] at hwords hfresh' ⊢
    exact (hfound.words_eq_iff hk (isText_of_memberType ht.1 hu) (isText_of_memberType ht'.1 hu')
      hfresh').1 hwords

/-! ### Fields -/

/-- The name of a type, and whether it is an array, are the same exactly if the name is read from
    the same node. -/
theorem typeWord_commented (hk : IsBlockComment k) (h : Commented k t t') (ht : t.IsText)
    (ht' : t'.IsText) (hfresh : typeWord t ≠ wording k) :
    (typeWord t' = typeWord t ∧ fieldRepeated (memberType t') = fieldRepeated (memberType t)) ↔
      nameSeen t' = nameSeen t := by
  rcases memberType_found hk h with hsame | ⟨u, u', hu, hu', hfound⟩
  · simp [typeWord, nameSeen, hsame]
  have hutext := isText_of_memberType ht hu
  have hutext' := isText_of_memberType ht' hu'
  simp only [typeWord, nameSeen, fieldRepeated, hu, hu', Option.map_some, Option.getD_some,
    Option.bind_some] at hfresh ⊢
  have hiff := (hfound.nameNode hk).ownName_eq_iff hk (isText_nameNode hutext)
    (isText_nameNode hutext') hfresh
  refine ⟨fun hsame => hiff.1 hsame.1, fun hsame => ⟨hiff.2 hsame, ?_⟩⟩
  refine isRepeated_of_found hk hfound hutext hutext' fun hcomment => hfresh ?_
  rw [← hiff.2 hsame, hcomment, hk.ownName_eq]

/-- A field is the same exactly if its type is read from the same node. -/
theorem fieldOf_commented {q : Option SyntaxTree} (hk : IsBlockComment k) (h : Commented k t t')
    (ht : PairIsText (q, t)) (ht' : PairIsText (q, t')) {type : String} {field : Field}
    (hf : fieldOf type (q, t) = .ok field) :
    ∃ field', fieldOf type (q, t') = .ok field' ∧
      (field.type ≠ wording k → (field' = field ↔ nameSeen t' = nameSeen t)) := by
  have hno := noFault_of_fieldOf ht hf
  have hno' : ∀ f, ¬ FieldFault t' f := by
    rintro f ⟨v', hv', hfault⟩
    rcases memberType_found hk h with hsame | ⟨u, u', hu, hu', hfound⟩
    · exact hno f ⟨v', hsame ▸ hv', hfault⟩
    · rw [hu'] at hv'
      cases hv'
      have hu'text := isText_of_memberType ht'.1 hu'
      cases hfound with
      | comment => exact hk.no_fault f hfault
      | same => exact hno f ⟨_, hu, hfault⟩
      | inside hin => exact hin.no_fault hk hu'text (fun g hg => hno g ⟨u, hu, hg⟩) f hfault
  obtain ⟨b, d, hfield, hb, hd⟩ := fieldOf_eq ht type hno
  obtain ⟨b', d', hfield', hb', hd'⟩ := fieldOf_eq ht' type hno'
  simp only [memberNameOf_commented hk h, isOptional_commented hk h] at hfield' hd'
  obtain rfl : d' = d := Except.ok.inj (hd'.symm.trans hd)
  obtain rfl := Except.ok.inj (hfield.symm.trans hf)
  refine ⟨_, hfield', fun hfresh => ?_⟩
  rw [← typeWord_commented hk h ht.1 ht'.1 hfresh, hb, hb']
  simp

/-! ## Interfaces with a comment -/

/-- A member with its elder sibling, if that is a comment. -/
def described (m : Option SyntaxTree × SyntaxTree) : Option SyntaxTree × SyntaxTree :=
  (m.1.filter fun p => p.kind == .comment, m.2)

theorem describe_described (q : Option SyntaxTree) (other : String) :
    describe (q.filter fun p => p.kind == .comment) other = describe q other := by
  cases q with
  | none => rfl
  | some p =>
    by_cases hp : p.kind = .comment
    · simp [Option.filter, hp]
    · simp [Option.filter, hp, describe_of_ne_comment hp]

theorem operationOf_described (m : Option SyntaxTree × SyntaxTree) :
    operationOf c (described m) = operationOf c m := by
  simp only [operationOf, described, describe_described]

theorem fieldOf_described (type : String) (m : Option SyntaxTree × SyntaxTree) :
    fieldOf type (described m) = fieldOf type m := by
  simp only [fieldOf, described, describe_described]

theorem capabilityOf_described (m : Option SyntaxTree × SyntaxTree) :
    capabilityOf c (described m) = capabilityOf c m := by
  simp only [capabilityOf, described, describe_described]

section Described

variable (ms : List (Option SyntaxTree × SyntaxTree)) (name : String)

theorem readOperations_described :
    readOperations c name (ms.map described) = readOperations c name ms := by
  simp [readOperations, operationOf_described]

theorem readTyped_described (previous : Option SyntaxTree) :
    readTyped c previous name (ms.map described) = readTyped c previous name ms := by
  simp [readTyped, fieldOf_described]

theorem readCapabilities_described :
    readCapabilities c name (ms.map described) = readCapabilities c name ms := by
  simp [readCapabilities, capabilityOf_described]

end Described

/-- The comment was put into one of the members, or into none. -/
def AmongMembers (k : SyntaxTree) (ms ms' : List (Option SyntaxTree × SyntaxTree)) : Prop :=
  ms' = ms ∨ ∃ pre q p p' post, ms = pre ++ (q, p) :: post ∧ ms' = pre ++ (q, p') :: post ∧
    Commented k p p'

theorem map_described_withPrevious {q q' : Option SyntaxTree} (hq : ∀ p ∈ q, p.kind ≠ .comment)
    (hq' : ∀ p ∈ q', p.kind ≠ .comment) (ts : List SyntaxTree) :
    (withPrevious q ts).map described = (withPrevious q' ts).map described := by
  have hnone {q : Option SyntaxTree} (hq : ∀ p ∈ q, p.kind ≠ .comment) :
      (q.filter fun p => p.kind == .comment) = none := by
    rw [Option.filter_eq_none_iff]
    simpa using hq
  cases ts with
  | nil => rfl
  | cons t ts => simp only [withPrevious, List.map_cons, described, hnone hq, hnone hq']

theorem properties_commented (hk : IsBlockComment k) (h : Commented k t t') :
    AmongMembers k ((properties t).map described) ((properties t').map described) := by
  have hfilter (ms : List (Option SyntaxTree × SyntaxTree)) :
      (ms.filter fun m => m.2.kind == .property).map described =
        (ms.map described).filter fun m => m.2.kind == .property := by
    rw [List.filter_map]
    rfl
  unfold properties
  rcases h.child? hk .body with hsame | ⟨-, b, b', hb, hb', hin⟩
  · rw [hsame]; exact Or.inl rfl
  rw [hb, hb']
  simp only [hin.kind_eq]
  split
  · next hkind =>
    simp only [hfilter]
    cases hin with
    | @before kd _ _ _ _ _ _ _ _ ho =>
      have hkd : kd = .interfaceBody ∨ kd = .objectType := by simpa [kind] using hkind
      rcases hkd with rfl | rfl <;> cases ho
    | @inside kd _ _ _ _ _ pre c c' post _ _ _ _ hc =>
      have hcomment : c.kind ≠ .comment := hc.kind_ne_comment
      have hpost : (withPrevious (some c') post).map described =
          (withPrevious (some c) post).map described :=
        map_described_withPrevious (by simpa [hc.kind_eq] using hcomment)
          (by simpa using hcomment) post
      simp only [children, withPrevious_append, withPrevious, List.map_append, List.map_cons,
        List.filter_append, List.filter_cons, hpost]
      have hkind' : (described (pre.getLast?.or none, c')).2.kind =
          (described (pre.getLast?.or none, c)).2.kind := hc.kind_eq
      rw [hkind']
      split
      · exact Or.inr ⟨_, _, c, c', _, rfl, rfl, hc⟩
      · exact Or.inl rfl
  · exact Or.inl rfl

theorem readEach_append_cons {α β : Type} {f : α → Except ReadFault β} {pre post : List α} {a : α}
    {bs : List β} : readEach f (pre ++ a :: post) = .ok bs ↔
      ∃ bpre b bpost, bs = bpre ++ b :: bpost ∧ readEach f pre = .ok bpre ∧ f a = .ok b ∧
        readEach f post = .ok bpost := by
  have hcons (a : α) (as : List α) (bs : List β) : readEach f (a :: as) = .ok bs ↔
      ∃ b rest, bs = b :: rest ∧ f a = .ok b ∧ readEach f as = .ok rest := by
    rw [readEach]
    cases f a <;> cases readEach f as <;> simp [bind, Except.bind, eq_comm]
  induction pre generalizing bs with
  | nil =>
    have hnil : readEach f [] = .ok [] := rfl
    simp [hcons, hnil]
  | cons p pre ih =>
    simp only [List.cons_append, hcons, ih]
    constructor
    · rintro ⟨b, rest, rfl, hp, bpre, b', bpost, rfl, hpre, ha, hpost⟩
      exact ⟨b :: bpre, b', bpost, rfl, ⟨b, bpre, rfl, hp, hpre⟩, ha, hpost⟩
    · rintro ⟨_, b', bpost, rfl, ⟨b, bpre, rfl, hp, hpre⟩, ha, hpost⟩
      exact ⟨b, bpre ++ b' :: bpost, rfl, hp, bpre, b', bpost, rfl, hpre, ha, hpost⟩

theorem readEach_congr {α β : Type} {f : α → Except ReadFault β} {as as' : List α}
    (h : as'.map f = as.map f) : readEach f as' = readEach f as := by
  have hid (as : List α) : readEach f as = readEach id (as.map f) := by
    rw [readEach_map]
    rfl
  rw [hid as', h, ← hid as]

section Members

variable {name : String} {ms ms' : List (Option SyntaxTree × SyntaxTree)}

theorem readOperations_commented (hk : IsBlockComment k) (h : AmongMembers k ms ms')
    (ht : ∀ m ∈ ms, PairIsText m) (ht' : ∀ m ∈ ms', PairIsText m) {ops : List Operation}
    (hops : readOperations c name ms = .ok ops)
    (hfresh : ∀ o ∈ ops, o.inputType ≠ wording k ∧ o.outputType ≠ wording k) :
    ∃ ops', readOperations c name ms' = .ok ops' ∧
      (ops' = ops ↔ (name = c.operationsInterface →
        ms'.map (fun m => argumentsSeen m.2) = ms.map fun m => argumentsSeen m.2)) := by
  rcases h with rfl | ⟨pre, q, p, p', post, rfl, rfl, h⟩
  · exact ⟨ops, hops, by simp⟩
  unfold readOperations at hops ⊢
  split at hops
  · next hname =>
    have hp : PairIsText (q, p) := ht _ (by simp)
    have hp' : PairIsText (q, p') := ht' _ (by simp)
    obtain ⟨o, o', ho, ho', hiff⟩ := operationOf_commented (c := c) hk h hp hp'
    cases hread : readEach (operationOf c) (pre ++ (q, p) :: post) with
    | error e => rw [hread] at hops; cases hops
    | ok opss =>
      rw [hread] at hops
      cases hops
      obtain ⟨opre, o₁, opost, rfl, hpre, ho₁, hpost⟩ := readEach_append_cons.1 hread
      obtain rfl : o₁ = o := Except.ok.inj (ho₁.symm.trans ho)
      have hread' := readEach_append_cons.2 ⟨opre, o', opost, rfl, hpre, ho', hpost⟩
      refine ⟨(opre ++ o' :: opost).flatten, by rw [if_pos hname, hread']; rfl, ?_⟩
      have hfresh₁ := hiff fun x hx => hfresh x (by simp [hx])
      simp [beq_iff_eq.1 hname, hfresh₁]
  · next hname =>
    have hne : name ≠ c.operationsInterface := by simpa using hname
    cases hops
    exact ⟨[], by rw [if_neg hname], by simp [hne]⟩

theorem readTyped_commented (hk : IsBlockComment k) (h : AmongMembers k ms ms')
    (ht : ∀ m ∈ ms, PairIsText m) (ht' : ∀ m ∈ ms', PairIsText m)
    {previous : Option SyntaxTree} {typed : Findings}
    (htyped : readTyped c previous name ms = .ok typed)
    (hfresh : ∀ type ∈ typed.types, ∀ f ∈ type.fields, f.type ≠ wording k) :
    ∃ typed', readTyped c previous name ms' = .ok typed' ∧ typed'.version = typed.version ∧
      (typed'.types = typed.types ↔ (isTypeName c name = true →
        ms'.map (fun m => nameSeen m.2) = ms.map fun m => nameSeen m.2)) := by
  rcases h with rfl | ⟨pre, q, p, p', post, rfl, rfl, h⟩
  · exact ⟨typed, htyped, rfl, by simp⟩
  unfold readTyped at htyped ⊢
  unfold isTypeName
  split at htyped
  · next hname =>
    cases hread : readEach (fieldOf name) (pre ++ (q, p) :: post) with
    | error e => rw [hread] at htyped; cases htyped
    | ok fields =>
      obtain ⟨fpre, field, fpost, rfl, hpre, hfield, hpost⟩ := readEach_append_cons.1 hread
      have hp : PairIsText (q, p) := ht _ (by simp)
      have hp' : PairIsText (q, p') := ht' _ (by simp)
      obtain ⟨field', hfield', hiff⟩ := fieldOf_commented hk h hp hp' hfield
      have hread' := readEach_append_cons.2 ⟨fpre, field', fpost, rfl, hpre, hfield', hpost⟩
      have hfields (f : Field) : (fpre ++ f :: fpost).isEmpty = false := by simp
      simp only [hread, hread', hname, if_true, Except.bind, hfields, Bool.false_eq_true,
        if_false] at htyped ⊢
      cases hd : describe previous (c.descriptionStart ++ " " ++ name) with
      | error e => rw [hd] at htyped; cases htyped
      | ok d =>
        rw [hd] at htyped
        cases htyped
        have hfresh₁ := hiff (hfresh _ (List.mem_singleton.2 rfl) field (by simp))
        exact ⟨_, rfl, rfl, by simp [hfresh₁]⟩
  · next hname =>
    cases htyped
    exact ⟨{}, by rw [if_neg hname], rfl, by simp [hname]⟩

theorem readCapabilities_commented (hk : IsBlockComment k) (h : AmongMembers k ms ms') :
    readCapabilities c name ms' = readCapabilities c name ms := by
  rcases h with rfl | ⟨pre, q, p, p', post, rfl, rfl, h⟩
  · rfl
  have hsame : capabilityOf c (q, p') = capabilityOf c (q, p) := by
    simp only [capabilityOf, memberName, childText, h.child?_name hk, isOptional_commented hk h]
  have hread : readEach (capabilityOf c) (pre ++ (q, p') :: post) =
      readEach (capabilityOf c) (pre ++ (q, p) :: post) := readEach_congr (by simp [hsame])
  rw [readCapabilities, hread, readCapabilities]

end Members

/-- No operation and no field of a specification has a type of this name. -/
def NoTypeCalled (word : String) (s : Specification) : Prop :=
  (∀ o ∈ s.operations, o.inputType ≠ word ∧ o.outputType ≠ word) ∧
    ∀ type ∈ s.types, ∀ f ∈ type.fields, f.type ≠ word

/-- Findings of a node before and after the comment was put into it: they are the same exactly if
    they are read from the same nodes. -/
structure Compared (c : Conventions) (ds ds' : List SyntaxTree) (part part' : Findings) :
    Prop where
  version : part'.version = part.version
  capabilities : part'.capabilities = part.capabilities
  operations : part'.operations = part.operations ↔
    ds'.flatMap (argumentsIn c) = ds.flatMap (argumentsIn c)
  types : part'.types = part.types ↔ ds'.flatMap (namesIn c) = ds.flatMap (namesIn c)

theorem Compared.refl (c : Conventions) (ds : List SyntaxTree) (part : Findings) :
    Compared c ds ds part part :=
  ⟨rfl, rfl, by simp, by simp⟩

theorem pairIsText_described {m : Option SyntaxTree × SyntaxTree} (h : PairIsText m) :
    PairIsText (described m) :=
  ⟨h.1, fun p hp => h.2 p (Option.filter_eq_some_iff.1 hp).1⟩

theorem interfaceFindings_commented (hk : IsBlockComment k) (h : Commented k t t') (ht : t.IsText)
    (ht' : t'.IsText) {previous : Option SyntaxTree} {part : Findings}
    (hpart : interfaceFindings c previous t = .ok part)
    (hfresh : NoTypeCalled (wording k) part.specification) :
    ∃ part', interfaceFindings c previous t' = .ok part' ∧ Compared c [t] [t'] part part' := by
  have hname : nameOf t' = nameOf t := by rw [nameOf, h.child?_name hk, nameOf]
  have hmembers := properties_commented hk h
  have htext : ∀ m ∈ (properties t).map described, PairIsText m := by
    simp only [List.forall_mem_map]
    exact fun m hm => pairIsText_described (pairIsText_properties ht hm)
  have htext' : ∀ m ∈ (properties t').map described, PairIsText m := by
    simp only [List.forall_mem_map]
    exact fun m hm => pairIsText_described (pairIsText_properties ht' hm)
  obtain ⟨ops, typed, caps, hops, htyped, hcaps, rfl⟩ := (interfaceFindings_ok_iff ht).1 hpart
  rw [← readOperations_described] at hops
  rw [← readTyped_described] at htyped
  rw [← readCapabilities_described] at hcaps
  obtain ⟨ops', hops', hopsIff⟩ := readOperations_commented hk hmembers htext htext' hops hfresh.1
  obtain ⟨typed', htyped', hversion, htypedIff⟩ :=
    readTyped_commented hk hmembers htext htext' htyped hfresh.2
  rw [← readCapabilities_commented hk hmembers] at hcaps
  rw [readOperations_described, ← hname] at hops'
  rw [readTyped_described, ← hname] at htyped'
  rw [readCapabilities_described, ← hname] at hcaps
  refine ⟨_, (interfaceFindings_ok_iff ht').2 ⟨ops', typed', caps, hops', htyped', hcaps, rfl⟩,
    hversion, rfl, ?_, ?_⟩
  · simp only [hopsIff, List.flatMap_singleton, argumentsIn, hname]
    by_cases hn : nameOf t = c.operationsInterface <;>
      simp [hn, described, Function.comp_def]
  · simp only [htypedIff, List.flatMap_singleton, namesIn, fieldsOf, hname]
    by_cases hn : isTypeName c (nameOf t) = true <;> simp [hn, described, Function.comp_def]

end Scaffold.Contract
