/-
  What the declarations of a source say.

  The names in a tree of text are readable, so of an interface only the type of a field can stop
  the reader: `interfaceFindings_cases` gives what the interface contributes in that it lists the
  names of operations, fields and capabilities, or the first field with a fault. A version can be
  read unless it holds an escape beyond the last code point (`findVersion_ok`).
-/
import Mathlib
import Scaffold.Contract.Reading
import Scaffold.Proofs.Escape
import Scaffold.Proofs.FieldType

namespace Scaffold.Contract

open Source

variable {t u : SyntaxTree} {c : Conventions}

/-! ## Names and descriptions -/

/-- The name of a declaration, empty without one. -/
def nameOf (t : SyntaxTree) : String := ((t.child? .name).map wording).getD ""

/-- The name of a member without quotes. -/
def memberNameOf (t : SyntaxTree) : String :=
  String.ofList ((nameOf t).toList.filter fun c => c != '\'' && c != '"')

theorem read_eq (h : t.IsText) : read t = .ok (wording t) := by
  rw [read, spelling_eq h]

theorem childText_name (h : t.IsText) : childText .name t = .ok (nameOf t) := by
  unfold childText nameOf
  cases hn : t.child? .name with
  | none => rfl
  | some n => exact read_eq (isText_of_child? h hn)

theorem memberName_eq (h : t.IsText) : memberName t = .ok (memberNameOf t) := by
  rw [memberName, childText_name h]
  rfl

/-- A node and its elder sibling, both of text. -/
def PairIsText (m : Option SyntaxTree × SyntaxTree) : Prop :=
  m.2.IsText ∧ ∀ p ∈ m.1, p.IsText

theorem describe_ok {previous : Option SyntaxTree} (h : ∀ p ∈ previous, p.IsText)
    (other : String) : ∃ s, describe previous other = .ok s := by
  unfold describe docOf
  cases previous with
  | none => exact ⟨other, rfl⟩
  | some p =>
    by_cases hk : p.kind = .comment
    · simp only [hk, beq_self_eq_true, if_true, spelling_eq (h p rfl), Except.map]
      cases docText (wording p).toList <;> exact ⟨_, rfl⟩
    · exact ⟨other, by simp [hk]⟩

theorem mem_withPrevious {previous : Option SyntaxTree} {ts : List SyntaxTree}
    {m : Option SyntaxTree × SyntaxTree} (h : m ∈ withPrevious previous ts) :
    m.2 ∈ ts ∧ (m.1 = previous ∨ ∃ p ∈ ts, m.1 = some p) := by
  induction ts generalizing previous with
  | nil => cases h
  | cons t ts ih =>
    rcases List.mem_cons.1 h with rfl | h
    · exact ⟨by simp, Or.inl rfl⟩
    · obtain ⟨hm, hp⟩ := ih h
      refine ⟨List.mem_cons_of_mem t hm, Or.inr ?_⟩
      rcases hp with hp | ⟨p, hp, he⟩
      · exact ⟨t, by simp, hp⟩
      · exact ⟨p, List.mem_cons_of_mem t hp, he⟩

theorem forall_withPrevious {P : SyntaxTree → Prop} {ts : List SyntaxTree} (h : ∀ t ∈ ts, P t)
    {m : Option SyntaxTree × SyntaxTree} (hm : m ∈ withPrevious none ts) :
    P m.2 ∧ ∀ p ∈ m.1, P p := by
  obtain ⟨h₂, h₁⟩ := mem_withPrevious hm
  refine ⟨h m.2 h₂, fun p hp => ?_⟩
  rcases h₁ with he | ⟨q, hq, he⟩
  · rw [he] at hp
    cases hp
  · rw [he] at hp
    exact Option.some.inj hp ▸ h q hq

theorem pairIsText_properties (h : t.IsText) {m : Option SyntaxTree × SyntaxTree}
    (hm : m ∈ properties t) : PairIsText m := by
  unfold properties at hm
  split at hm
  · next body hb =>
    split at hm
    · exact forall_withPrevious (fun u hu => (isText_of_child? h hb).child hu)
        (List.mem_filter.1 hm).1
    · cases hm
  · cases hm

theorem isText_of_memberType (h : t.IsText) (hu : memberType t = some u) : u.IsText := by
  unfold memberType at hu
  split at hu
  · next a ha =>
    split at hu
    · exact isText_of_namedChildren (isText_of_child? h ha) (List.mem_of_head? hu)
    · cases hu; exact isText_of_child? h ha
  · cases hu

/-! ## Versions -/

/-- An escape that names a code point beyond the last. -/
def IsLargeEscape (t : SyntaxTree) : Prop :=
  t.kind = .escape ∧
    ∃ digits, bracedDigits? (wording t).toList = some digits ∧ 0x10FFFF < Text.hexNumber digits

/-- A variable with the name of the version whose value holds an escape beyond the last code
    point. -/
def HoldsLargeVersion (c : Conventions) (t : SyntaxTree) : Prop :=
  t.kind = .declarator ∧ nameOf t = c.versionConstant ∧
    ∃ v, versionValue t = some v ∧ ∃ u ∈ v.namedChildren, IsLargeEscape u

theorem decodeEscape_ok (h : t.Every Sound) (hk : t.kind = .escape) (hl : ¬ IsLargeEscape t) :
    ∃ value, decodeEscape (wording t).toList = .ok value := by
  obtain ⟨s, hs⟩ := Text.exists_ofString h.self.1
  have hw : wording t = s := by rw [wording, hs, Text.toString?_ofString, Option.getD_some]
  have hform : EscapeForm (wording t).toList := by
    have he := h.self.2 hk
    rw [hs] at he
    exact hw ▸ form_of_isEscape he
  rcases decodeEscape_cases hform with hok | hlarge
  · exact hok
  · exact absurd ⟨hk, hlarge⟩ hl

theorem pieces_ok {ts : List SyntaxTree} (h : ∀ t ∈ ts, t.Every Sound)
    (hl : ∀ t ∈ ts, ¬ IsLargeEscape t) : ∃ value, pieces ts = .ok value := by
  induction ts with
  | nil => exact ⟨[], rfl⟩
  | cons t ts ih =>
    obtain ⟨more, hmore⟩ := ih (fun u hu => h u (List.mem_cons_of_mem t hu)) fun u hu =>
      hl u (List.mem_cons_of_mem t hu)
    have ht := h t (List.mem_cons_self ..)
    have hread := read_eq (isText_of_sound ht)
    rw [pieces, hmore]
    by_cases hf : t.kind = .fragment
    · exact ⟨Text.ofString (wording t) ++ more, by simp [hf, hread, Except.map, bind, Except.bind]⟩
    by_cases he : t.kind = .escape
    · obtain ⟨value, hv⟩ := decodeEscape_ok ht he (hl t (List.mem_cons_self ..))
      exact ⟨value ++ more, by simp [he, hread, hv, bind, Except.bind]⟩
    · exact ⟨more, by simp [hf, he, bind, Except.bind]⟩

theorem every_of_versionValue {P : SyntaxTree → Prop} (h : t.Every P)
    (hu : versionValue t = some u) : u.Every P := by
  unfold versionValue at hu
  split at hu
  · next v hv =>
    have hvP := h.child (mem_children_of_child? hv)
    obtain ⟨hu, -⟩ := Option.filter_eq_some_iff.1 hu
    split at hu
    · exact hvP.child (mem_children_of_namedChildren (List.mem_of_head? hu))
    · cases hu; exact hvP
  · cases hu

/-- The version in a declaration is readable, unless an escape in it is out of range. -/
theorem findVersion_ok {ts : List SyntaxTree} (h : ∀ t ∈ ts, t.Every Sound)
    (hl : ∀ t ∈ ts, ¬ HoldsLargeVersion c t) : ∃ version, findVersion c ts = .ok version := by
  induction ts with
  | nil => exact ⟨none, rfl⟩
  | cons t ts ih =>
    have hrest := ih (fun u hu => h u (List.mem_cons_of_mem t hu)) fun u hu =>
      hl u (List.mem_cons_of_mem t hu)
    have ht := h t (List.mem_cons_self ..)
    rw [findVersion]
    split
    · next hk =>
      rw [childText_name (isText_of_sound ht)]
      simp only [bind, Except.bind]
      split
      · next v hv =>
        obtain ⟨hname, hv⟩ : nameOf t = c.versionConstant ∧ versionValue t = some v := by
          simpa using hv
        have hvs := every_of_versionValue ht hv
        obtain ⟨value, hvalue⟩ := pieces_ok
          (fun u hu => hvs.child (mem_children_of_namedChildren hu)) fun u hu hlarge =>
            hl t (List.mem_cons_self ..) ⟨beq_iff_eq.1 hk, hname, v, hv, u, hu, hlarge⟩
        exact ⟨some value, by rw [stringValue, hvalue]; rfl⟩
      · exact hrest
    · exact hrest

/-! ## Members -/

section

variable {α β : Type} {f : α → Except ReadFault β}

theorem readEach_ok {R : α → β → Prop} {as : List α}
    (h : ∀ a ∈ as, ∃ b, f a = .ok b ∧ R a b) :
    ∃ bs, readEach f as = .ok bs ∧ List.Forall₂ R as bs := by
  induction as with
  | nil => exact ⟨[], rfl, .nil⟩
  | cons a as ih =>
    obtain ⟨b, hb, hR⟩ := h a (List.mem_cons_self ..)
    obtain ⟨bs, hbs, hRs⟩ := ih fun x hx => h x (List.mem_cons_of_mem a hx)
    exact ⟨b :: bs, by rw [readEach, hb, hbs]; rfl, .cons hR hRs⟩

end

/-- A property that refers to a type declares an operation. -/
def declaresOperation (t : SyntaxTree) : Bool :=
  (memberType t).any fun type => isReference type.kind

theorem argumentText_ok {args : List SyntaxTree} (h : ∀ t ∈ args, t.IsText) (i : Nat) :
    ∃ s, argumentText args i = .ok s := by
  unfold argumentText
  split
  · next t ht => exact ⟨_, read_eq (h t (List.mem_of_getElem? ht))⟩
  · exact ⟨_, rfl⟩

theorem operationOf_ok {m : Option SyntaxTree × SyntaxTree} (h : PairIsText m) :
    ∃ ops, operationOf c m = .ok ops ∧
      ops.map Operation.name = if declaresOperation m.2 then [memberNameOf m.2] else [] := by
  unfold operationOf declaresOperation
  cases htype : memberType m.2 with
  | none => exact ⟨[], rfl, rfl⟩
  | some type =>
    by_cases hr : isReference type.kind = true
    · have hargs : ∀ t ∈ typeArgumentsOf type, t.IsText := fun t ht =>
        isText_of_typeArgumentsOf (isText_of_memberType h.1 htype) ht
      obtain ⟨d, hd⟩ := describe_ok h.2
        (c.descriptionStart ++ " " ++ memberNameOf m.2 ++ " operation")
      obtain ⟨i, hi⟩ := argumentText_ok hargs 0
      obtain ⟨o, ho⟩ := argumentText_ok hargs 1
      refine ⟨[⟨memberNameOf m.2, d, i, o, !isOptional m.2⟩], ?_, by simp [hr]⟩
      simp [hr, memberName_eq h.1, hd, hi, ho, bind, Except.bind]
    · exact ⟨[], by simp [hr], by simp [hr]⟩

theorem capabilityOf_ok {m : Option SyntaxTree × SyntaxTree} (h : PairIsText m) :
    ∃ capability, capabilityOf c m = .ok capability ∧ capability.name = memberNameOf m.2 := by
  obtain ⟨d, hd⟩ := describe_ok h.2
    (c.descriptionStart ++ " " ++ memberNameOf m.2 ++ " capability")
  refine ⟨⟨memberNameOf m.2, d, !isOptional m.2⟩, ?_, rfl⟩
  simp [capabilityOf, memberName_eq h.1, hd, bind, Except.bind]

/-- A property whose type has a fault. -/
def FieldFault (t : SyntaxTree) (f : TypeFault) : Prop :=
  ∃ type, memberType t = some type ∧ FaultOf type f

/-- The fault of a field, with the names of its type and itself. -/
def TypeFault.inField (type field : String) : TypeFault → ReadFault
  | .unresolved text => .unresolved type field text
  | .undecodable f => .undecodable f
  | .shapeless => .shapeless

theorem fieldOf_cases {m : Option SyntaxTree × SyntaxTree} (h : PairIsText m) (type : String) :
    (∃ field, fieldOf type m = .ok field ∧ field.name = memberNameOf m.2 ∧
      ∀ f, ¬ FieldFault m.2 f) ∨
    ∃ f, FieldFault m.2 f ∧ fieldOf type m = .error (f.inField type (memberNameOf m.2)) := by
  obtain ⟨d, hd⟩ := describe_ok h.2 (memberNameOf m.2 ++ " field")
  unfold fieldOf FieldFault
  rw [memberName_eq h.1]
  cases htype : memberType m.2 with
  | none =>
    refine Or.inl ⟨⟨memberNameOf m.2, untyped, !isOptional m.2, false, d⟩, ?_, rfl, by simp⟩
    simp [fieldType, fieldRepeated, hd, bind, Except.bind]
  | some u =>
    have hu := isText_of_memberType h.1 htype
    cases hr : resolve u with
    | error f =>
      refine Or.inr ⟨f, ⟨u, rfl, (resolve_error_iff hu f).1 hr⟩, ?_⟩
      cases f <;> simp [fieldType, hr, bind, Except.bind, TypeFault.inField]
    | ok s =>
      obtain ⟨b, hb⟩ := isRepeated_ok hu
      refine Or.inl ⟨⟨memberNameOf m.2, s, !isOptional m.2, b, d⟩, ?_, rfl, ?_⟩
      · simp [fieldType, fieldRepeated, hr, hb, hd, bind, Except.bind]
      · rintro f ⟨v, hv, hf⟩
        cases hv
        rw [← resolve_error_iff hu, hr] at hf
        cases hf

/-! ## Interfaces -/

/-- Fields of types, each with the name of its type; the first one with a fault has the fault
    `f`. -/
def FirstFault (fields : List (String × SyntaxTree)) (type : String) (field : SyntaxTree)
    (f : TypeFault) : Prop :=
  ∃ before after, fields = before ++ (type, field) :: after ∧
    (∀ p ∈ before, ∀ g, ¬ FieldFault p.2 g) ∧ FieldFault field f

/-- Fields of types without a fault. -/
def NoFault (fields : List (String × SyntaxTree)) : Prop := ∀ p ∈ fields, ∀ f, ¬ FieldFault p.2 f

theorem readFields_cases {ms : List (Option SyntaxTree × SyntaxTree)} (h : ∀ m ∈ ms, PairIsText m)
    (type : String) :
    (∃ fields, readEach (fieldOf type) ms = .ok fields ∧
      fields.map Field.name = ms.map (fun m => memberNameOf m.2) ∧
      NoFault (ms.map fun m => (type, m.2))) ∨
    ∃ field f, FirstFault (ms.map fun m => (type, m.2)) type field f ∧
      readEach (fieldOf type) ms = .error (f.inField type (memberNameOf field)) := by
  induction ms with
  | nil => exact Or.inl ⟨[], rfl, rfl, by simp [NoFault]⟩
  | cons m ms ih =>
    rcases fieldOf_cases (h m (List.mem_cons_self ..)) type with ⟨field, hf, hname, hno⟩ |
      ⟨f, hf, he⟩
    · have hcons (p : String × SyntaxTree) (hp : p = (type, m.2)) : ∀ g, ¬ FieldFault p.2 g := by
        rw [hp]
        exact hno
      rcases ih fun x hx => h x (List.mem_cons_of_mem m hx) with ⟨fields, hfs, hnames, hnos⟩ |
        ⟨field', f, ⟨before, after, hms, hbefore, hfault⟩, he⟩
      · refine Or.inl ⟨field :: fields, ?_, by simp [hname, hnames], fun p hp => ?_⟩
        · rw [readEach, hf, hfs]
          rfl
        · rcases List.mem_cons.1 hp with hp | hp
          · exact hcons p hp
          · exact hnos p hp
      · refine Or.inr ⟨field', f, ⟨(type, m.2) :: before, after, ?_, fun p hp => ?_, hfault⟩, ?_⟩
        · rw [List.map_cons, hms]
          rfl
        · rcases List.mem_cons.1 hp with hp | hp
          · exact hcons p hp
          · exact hbefore p hp
        · rw [readEach, hf, he]
          rfl
    · refine Or.inr ⟨m.2, f, ⟨[], _, rfl, by simp, hf⟩, ?_⟩
      rw [readEach, he]
      rfl

/-- The interfaces that declare types. -/
def isTypeName (c : Conventions) (name : String) : Bool :=
  endsWith name c.typeEnding && name != c.typeMarker

/-- The names of the operations that an interface declares. -/
def operationsOf (c : Conventions) (t : SyntaxTree) : List String :=
  if nameOf t == c.operationsInterface then
    ((properties t).filter fun m => declaresOperation m.2).map fun m => memberNameOf m.2
  else []

/-- The fields that an interface declares, each with the name of the interface. -/
def fieldsOf (c : Conventions) (t : SyntaxTree) : List (String × SyntaxTree) :=
  if isTypeName c (nameOf t) then (properties t).map fun m => (nameOf t, m.2) else []

/-- The names of the capabilities that an interface declares. -/
def capabilitiesOf (c : Conventions) (t : SyntaxTree) : List String :=
  if nameOf t == c.capabilitiesInterface then (properties t).map fun m => memberNameOf m.2 else []

/-- Findings that list these operations, fields and capabilities; no type is without fields. -/
structure Lists (found : Findings) (operations : List String) (fields : List (String × SyntaxTree))
    (capabilities : List String) : Prop where
  operations : found.operations.map Operation.name = operations
  fields : (found.types.flatMap fun type => type.fields.map fun f => (type.name, f.name)) =
    fields.map fun p => (p.1, memberNameOf p.2)
  nonempty : ∀ type ∈ found.types, type.fields ≠ []
  capabilities : found.capabilities.map Capability.name = capabilities

theorem Lists.append {a b : Findings} {ops ops' : List String}
    {fields fields' : List (String × SyntaxTree)} {caps caps' : List String}
    (ha : Lists a ops fields caps) (hb : Lists b ops' fields' caps') :
    Lists (a.append b) (ops ++ ops') (fields ++ fields') (caps ++ caps') where
  operations := by simp [Findings.append, ha.operations, hb.operations]
  fields := by simp [Findings.append, ha.fields, hb.fields]
  nonempty := by
    intro type ht
    rcases List.mem_append.1 ht with ht | ht
    · exact ha.nonempty type ht
    · exact hb.nonempty type ht
  capabilities := by simp [Findings.append, ha.capabilities, hb.capabilities]

/-- The operations of an interface with a name and members. -/
def readOperations (c : Conventions) (name : String)
    (members : List (Option SyntaxTree × SyntaxTree)) : Except ReadFault (List Operation) :=
  if name == c.operationsInterface then (readEach (operationOf c) members).map List.flatten
  else .ok []

/-- The type that an interface with a name and members declares. -/
def readTyped (c : Conventions) (previous : Option SyntaxTree) (name : String)
    (members : List (Option SyntaxTree × SyntaxTree)) : Except ReadFault Findings :=
  if endsWith name c.typeEnding && name != c.typeMarker then
    (readEach (fieldOf name) members).bind fun fields =>
      if fields.isEmpty then .ok { emptyTypes := [name] }
      else (describe previous (c.descriptionStart ++ " " ++ name)).bind fun description =>
        .ok { types := [{ name, description, fields }] }
  else .ok {}

/-- The capabilities of an interface with a name and members. -/
def readCapabilities (c : Conventions) (name : String)
    (members : List (Option SyntaxTree × SyntaxTree)) : Except ReadFault (List Capability) :=
  if name == c.capabilitiesInterface then readEach (capabilityOf c) members else .ok []

/-- An interface is read as operations, as a type and as capabilities, one after the other. -/
theorem interfaceFindings_eq (c : Conventions) (previous : Option SyntaxTree) (t : SyntaxTree) :
    interfaceFindings c previous t =
      (childText .name t).bind fun name =>
        (readOperations c name (properties t)).bind fun operations =>
          (readTyped c previous name (properties t)).bind fun typed =>
            (readCapabilities c name (properties t)).bind fun capabilities =>
              .ok { typed with operations, capabilities } := by
  have ite_bind {α β : Type} (p : Prop) [Decidable p] (x y : Except ReadFault α)
      (f : α → Except ReadFault β) :
      (if p then x else y).bind f = if p then x.bind f else y.bind f := by
    split <;> rfl
  have ok_bind {α β : Type} (a : α) (f : α → Except ReadFault β) : (Except.ok a).bind f = f a := rfl
  have bind_bind {α β γ : Type} (x : Except ReadFault α) (f : α → Except ReadFault β)
      (g : β → Except ReadFault γ) : (x.bind f).bind g = x.bind fun a => (f a).bind g := by
    cases x <;> rfl
  simp only [interfaceFindings, bind, readOperations, readTyped, readCapabilities, ite_bind,
    ok_bind, bind_bind]

theorem readOperations_ok (h : t.IsText) :
    ∃ ops, readOperations c (nameOf t) (properties t) = .ok ops ∧
      ops.map Operation.name = operationsOf c t := by
  unfold readOperations operationsOf
  split
  · obtain ⟨opss, hopss, hnames⟩ := readEach_ok fun m hm =>
      operationOf_ok (c := c) (pairIsText_properties h hm)
    refine ⟨opss.flatten, by rw [hopss]; rfl, ?_⟩
    clear hopss
    generalize properties t = ms at hnames ⊢
    induction hnames with
    | nil => rfl
    | @cons m ops ms opss hname _ ih =>
      rw [List.flatten_cons, List.map_append, hname, ih, List.filter_cons]
      split <;> rfl
  · exact ⟨[], rfl, rfl⟩

theorem readCapabilities_ok (h : t.IsText) :
    ∃ caps, readCapabilities c (nameOf t) (properties t) = .ok caps ∧
      caps.map Capability.name = capabilitiesOf c t := by
  unfold readCapabilities capabilitiesOf
  split
  · obtain ⟨caps, hcaps, hnames⟩ := readEach_ok fun m hm =>
      capabilityOf_ok (c := c) (pairIsText_properties h hm)
    refine ⟨caps, hcaps, ?_⟩
    clear hcaps
    generalize properties t = ms at hnames ⊢
    induction hnames with
    | nil => rfl
    | cons hname _ ih => rw [List.map_cons, List.map_cons, hname, ih]
  · exact ⟨[], rfl, rfl⟩

theorem readTyped_cases {previous : Option SyntaxTree} (h : t.IsText)
    (hp : ∀ p ∈ previous, p.IsText) :
    (∃ typed, readTyped c previous (nameOf t) (properties t) = .ok typed ∧
      (typed.types.flatMap fun type => type.fields.map fun f => (type.name, f.name)) =
        ((fieldsOf c t).map fun p => (p.1, memberNameOf p.2)) ∧
      (∀ type ∈ typed.types, type.fields ≠ []) ∧ NoFault (fieldsOf c t)) ∨
    ∃ type field f, FirstFault (fieldsOf c t) type field f ∧
      readTyped c previous (nameOf t) (properties t) =
        .error (f.inField type (memberNameOf field)) := by
  unfold readTyped fieldsOf isTypeName
  split
  · rcases readFields_cases (fun m hm => pairIsText_properties h hm) (nameOf t) with
      ⟨fields, hf, hnames, hno⟩ | ⟨field, f, hfirst, he⟩
    · rw [hf]
      cases fields with
      | nil =>
        have hms : properties t = [] := by simpa using hnames.symm
        refine Or.inl ⟨_, rfl, ?_, by simp, hno⟩
        rw [hms]
        rfl
      | cons field fields =>
        obtain ⟨d, hd⟩ := describe_ok hp (c.descriptionStart ++ " " ++ nameOf t)
        refine Or.inl ⟨⟨none, [], [⟨nameOf t, d, field :: fields⟩], [], []⟩, ?_, ?_, by simp, hno⟩
        · simp [Except.bind, hd]
        · have := congrArg (List.map fun n => (nameOf t, n)) hnames
          simpa [Function.comp_def] using this
    · exact Or.inr ⟨nameOf t, field, f, hfirst, by rw [he]; rfl⟩
  · exact Or.inl ⟨{}, rfl, rfl, by simp, by simp [NoFault]⟩

/-- What an interface of text contributes: all that it lists, unless a field has a fault. -/
theorem interfaceFindings_cases {previous : Option SyntaxTree} (h : t.IsText)
    (hp : ∀ p ∈ previous, p.IsText) :
    (∃ part, interfaceFindings c previous t = .ok part ∧
      Lists part (operationsOf c t) (fieldsOf c t) (capabilitiesOf c t) ∧
      NoFault (fieldsOf c t)) ∨
    ∃ type field f, FirstFault (fieldsOf c t) type field f ∧
      interfaceFindings c previous t = .error (f.inField type (memberNameOf field)) := by
  obtain ⟨ops, hops, hopNames⟩ := readOperations_ok (c := c) h
  obtain ⟨caps, hcaps, hcapNames⟩ := readCapabilities_ok (c := c) h
  rw [interfaceFindings_eq, childText_name h]
  simp only [Except.bind, hops]
  rcases readTyped_cases (c := c) h hp with ⟨typed, ht, hfields, hne, hno⟩ |
    ⟨type, field, f, hfirst, he⟩
  · simp only [ht, hcaps]
    exact Or.inl ⟨_, rfl, ⟨hopNames, hfields, hne, hcapNames⟩, hno⟩
  · simp only [he]
    exact Or.inr ⟨type, field, f, hfirst, rfl⟩

theorem every_unwrapExport {P : SyntaxTree → Prop} (h : t.Every P) : (unwrapExport t).Every P := by
  unfold unwrapExport
  split
  · cases hd : t.child? .declaration with
    | none => exact h
    | some d => exact h.child (mem_children_of_child? hd)
  · exact h

/-! ## Trees by hand -/

/-- The tree of a property with a name and a type. -/
def propertyTree (f : String × SyntaxTree) : SyntaxTree :=
  .node .property none 0 [] [
    .node .name (some .name) 0 (Text.ofString f.1) [],
    .node .ascribed (some .type) 0 [] [f.2]]

/-- The tree of an interface with a name and properties. -/
def interfaceTree (name : String) (fields : List (String × SyntaxTree)) : SyntaxTree :=
  .node .interfaceDeclaration none 0 [] [
    .node .typeName (some .name) 0 (Text.ofString name) [],
    .node .interfaceBody (some .body) 0 [] (fields.map propertyTree)]

end Scaffold.Contract
