/-
  What templates are lent of a context, and what is left of it.

  * `Shown l x names`: read by name and by entry, with what `l` says is left of the lists, the
    values of names are the context `x`. Nothing here refers to how the values were made.
  * The names that a job is given show the context, and with what is left after rendering they show
    the context that the next job is given (`shown_leave`).
  * `Remains x₀ x`: nothing was added to a context and no entry of it altered; some items of its
    lists may be gone, and the others in another order.
-/
import Mathlib
import Scaffold.Generator.Basic
import Scaffold.Proofs.Footprint

namespace Scaffold

open Template

/-! ## Entries by name -/

namespace Context

/-- A value has these entries. -/
def Has (v : Value) (entries : List (String × Value)) : Prop :=
  ∀ e ∈ entries, v.element? (.ofString e.1) = some e.2

theorem sameKey_ofString (a b : String) :
    (Value.ofString a).sameKey (.ofString b) = (a == b) := by
  rw [Bool.eq_iff_iff, beq_iff_eq, ← Text.ofString_inj]
  exact beq_iff_eq

/-- **Entries are read back by their names.** -/
theorem element?_record (entries : Scope) (name : String) :
    (record entries).element? (.ofString name) = entries.get? name := by
  have hkey : (Value.ofString name).isKey = true := rfl
  rw [record, Value.element?, if_pos hkey, Value.lookup?, List.find?_map, Scope.get?,
    Option.map_map]
  have hsame : ((fun e : Value × Value => e.1.sameKey (.ofString name)) ∘
      fun e : String × Value => (Value.ofString e.1, e.2)) = fun e => e.1 == name :=
    funext fun e => sameKey_ofString e.1 name
  rw [hsame]
  rfl

theorem has_record {entries : Scope} (h : (entries.map Prod.fst).Nodup) :
    Has (record entries) entries := by
  intro e he
  rw [element?_record, Scope.get?]
  induction entries with
  | nil => cases he
  | cons d entries ih =>
    rw [List.map_cons, List.nodup_cons] at h
    rcases List.mem_cons.1 he with rfl | he
    · simp
    · have hne : (d.1 == e.1) = false := by
        simpa using fun hd : d.1 = e.1 => h.1 (hd ▸ List.mem_map_of_mem he)
      rw [List.find?_cons, hne]
      exact ih h.2 he

/-! ## What is left of lists -/

variable {α β : Type} {l : Loans}

theorem pick_map (l : Loans) (spot : Spot) (f : α → β) (items : List α) :
    l.pick spot (items.map f) = (l.pick spot items).map f := by
  unfold Loans.pick
  split
  · rw [List.map_filterMap]
    simp only [List.getElem?_map]
  · rfl

theorem forall₂_pick {R : α → β → Prop} (l : Loans) (spot : Spot) {as : List α} {bs : List β}
    (h : List.Forall₂ R as bs) : List.Forall₂ R (l.pick spot as) (l.pick spot bs) := by
  unfold Loans.pick
  split
  · next ps _ =>
    induction ps.1 with
    | nil => exact .nil
    | cons i is ih =>
      rw [List.filterMap_cons, List.filterMap_cons]
      by_cases hi : i < as.length
      · have hi' : i < bs.length := h.length_eq ▸ hi
        rw [List.getElem?_eq_getElem hi, List.getElem?_eq_getElem hi']
        exact .cons (h.get hi hi') ih
      · have hi' : ¬ i < bs.length := h.length_eq ▸ hi
        rw [List.getElem?_eq_none (by omega), List.getElem?_eq_none (by omega)]
        exact ih
  · exact h

theorem forall₂_mapIdx {R : α → β → Prop} {f : Nat → α → β} (h : ∀ i a, R a (f i a))
    (as : List α) : List.Forall₂ R as (as.mapIdx f) := by
  induction as generalizing f with
  | nil => exact .nil
  | cons a as ih =>
    rw [List.mapIdx_cons]
    exact .cons (h 0 a) (ih fun i => h (i + 1))

theorem lookThroughItems_eq_map (l : Loans) (items : List Value) :
    Value.lookThroughItems l items = items.map (·.lookThrough l) := by
  induction items with
  | nil => rfl
  | cons v items ih => rw [Value.lookThroughItems, ih, List.map_cons]

theorem lookThrough_record (l : Loans) (entries : Scope) :
    (record entries).lookThrough l = record (entries.map fun e => (e.1, e.2.lookThrough l)) := by
  rw [record, Value.lookThrough, record]
  congr 1
  induction entries with
  | nil => rfl
  | cons e entries ih =>
    rw [List.map_cons, Value.lookThroughEntries, ih, List.map_cons, List.map_cons]

theorem lookThrough_shared (list : Shared) {value : α → Value}
    (hvalue : ∀ a, (value a).lookThrough l = value a) (items : List α) :
    (shared list value items).lookThrough l = .list ((l.pick list.spot items).map value) := by
  rw [shared, Value.lookThrough, lookThroughItems_eq_map, List.map_map, pick_map]
  congr 2
  exact funext hvalue

/-! ## What is shown -/

/-- A value shows an operation. -/
def ShowsOperation (o : OperationEntry) (v : Value) : Prop :=
  Has v
    [("name", .ofString o.name), ("handler_name", .ofString o.handlerName),
     ("description", .ofString o.description), ("input_type", .ofString o.inputType),
     ("output_type", .ofString o.outputType), ("input_type_name", .ofString o.inputTypeName),
     ("output_type_name", .ofString o.outputTypeName), ("required", .bool o.required),
     ("category", .ofString o.category), ("verb", .ofString o.verb),
     ("is_mutation", .bool o.isMutation)]

/-- A value shows a field. -/
def ShowsField (f : FieldEntry) (v : Value) : Prop :=
  Has v
    [("name", .ofString f.name), ("type", .ofString f.type),
     ("target_type", .ofString f.targetType), ("element_type", .ofString f.elementType),
     ("required", .bool f.required), ("repeated", .bool f.repeated),
     ("is_generated", .bool f.isGenerated), ("description", .ofString f.description)]

/-- A value shows a type. -/
def ShowsType (t : TypeEntry) (v : Value) : Prop :=
  ∃ fs, List.Forall₂ ShowsField t.fields fs ∧ Has v
    [("name", .ofString t.name), ("description", .ofString t.description), ("fields", .list fs),
     ("required_fields", .list (t.requiredFields.map .ofString))]

/-- A value shows a capability. -/
def ShowsCapability (c : Capability) (v : Value) : Prop :=
  Has v
    [("name", .ofString c.name), ("description", .ofString c.description),
     ("required", .bool c.required)]

/-- A value shows a project. -/
def ShowsProject (p : Project) (v : Value) : Prop :=
  Has v
    [("project_name", .ofString p.name), ("version", .ofString p.version),
     ("description", .ofString p.description), ("author", .ofString p.author),
     ("license", .ofString p.license)]

/-- The value of a name, with what is left of the lists in it. -/
def seen (l : Loans) (names : Scope) (name : String) : Option Value :=
  (names.get? name).map (·.lookThrough l)

/-- The names of the parts of a context. -/
def shownNames : List String :=
  ["project", "framework", "language", "protocol_version", "operations", "categories",
   "category_routes", "types", "capabilities", "required_capabilities", "operation_count",
   "type_count"]

/-- Names show a context, with what is left of its lists. -/
structure Shown (l : Loans) (x : Context) (names : Scope) : Prop where
  project : ∃ v, seen l names "project" = some v ∧ ShowsProject x.project v
  framework : seen l names "framework" = some (.ofString x.framework.name)
  language : seen l names "language" = some (.ofString x.language.name)
  version : seen l names "protocol_version" = some (.text x.version)
  operations : ∃ vs, seen l names "operations" = some (.list vs) ∧
    List.Forall₂ ShowsOperation x.operations vs
  categories : seen l names "categories" = some (.mapping (x.categories.map fun g =>
    (.ofString g.1, .list (g.2.map .ofString))))
  routes : seen l names "category_routes" = some (.mapping (x.routes.map fun r =>
    (.ofString r.1, .ofString r.2)))
  types : ∃ vs, seen l names "types" = some (.list vs) ∧ List.Forall₂ ShowsType x.types vs
  capabilities : ∃ vs, seen l names "capabilities" = some (.list vs) ∧
    List.Forall₂ ShowsCapability x.capabilities vs
  requiredCapabilities : seen l names "required_capabilities" =
    some (.list (x.requiredCapabilities.map .ofString))
  operationCount : seen l names "operation_count" = some (.whole x.operationCount)
  typeCount : seen l names "type_count" = some (.whole x.typeCount)

/-- Names show a context, and besides it a category and its operations if one is given. -/
structure ShownFor (x : Context) (category : Option String) (names : Scope) : Prop
    extends Shown .untouched x names where
  chosen : seen .untouched names "category" = category.map .ofString
  operationsIn : ∀ k ∈ category, ∃ vs, seen .untouched names "category_operations" =
    some (.list vs) ∧ List.Forall₂ ShowsOperation (x.operations.filter (·.category = k)) vs
  only : ∀ e ∈ names, e.1 ∈ shownNames ∨
    category.isSome = true ∧ e.1 ∈ ["category", "category_operations"]

theorem shows_operation (o : OperationEntry) : ShowsOperation o o.value :=
  has_record (by simp)

theorem shows_field (f : FieldEntry) : ShowsField f f.value :=
  has_record (by simp)

theorem shows_capability (c : Capability) : ShowsCapability c (capabilityValue c) :=
  has_record (by simp)

theorem shows_project (p : Project) : ShowsProject p (projectValue p) :=
  has_record (by simp)

theorem lookThrough_operation (l : Loans) (o : OperationEntry) :
    o.value.lookThrough l = o.value := lookThrough_record l _

theorem lookThrough_field (l : Loans) (f : FieldEntry) : f.value.lookThrough l = f.value :=
  lookThrough_record l _

theorem lookThrough_capability (l : Loans) (c : Capability) :
    (capabilityValue c).lookThrough l = capabilityValue c := lookThrough_record l _

theorem lookThrough_ofString (l : Loans) (s : String) :
    (Value.ofString s).lookThrough l = .ofString s := rfl

theorem shows_type (l : Loans) (i : Nat) (t : TypeEntry) :
    ShowsType (t.leave l i) ((t.value i).lookThrough l) := by
  refine ⟨(l.pick (Shared.spot (.fields i)) t.fields).map FieldEntry.value, ?_, ?_⟩
  · rw [List.forall₂_map_right_iff]
    exact List.forall₂_same.2 fun f _ => shows_field f
  · rw [TypeEntry.value, lookThrough_record]
    simp only [List.map_cons, List.map_nil, lookThrough_shared _ (lookThrough_field l),
      lookThrough_shared _ (lookThrough_ofString l), lookThrough_ofString]
    exact has_record (by simp)

theorem get?_valuesFor (x : Context) (category : Option String) {name : String}
    (hname : (x.values.get? name).isSome = true) :
    (x.valuesFor category).get? name = x.values.get? name := by
  cases category with
  | none => rfl
  | some k =>
    rw [Scope.get?, Option.isSome_map] at hname
    rw [valuesFor, Scope.get?, List.find?_append, Option.or_of_isSome hname, Scope.get?]

/-- **What templates have left of a context is what their names show in the end.** -/
theorem shown_leave (l : Loans) (x : Context) (category : Option String) :
    Shown l (x.leave l) (x.valuesFor category) := by
  have hseen {name : String} {v : Value} (h : x.values.get? name = some v) :
      seen l (x.valuesFor category) name = some (v.lookThrough l) := by
    rw [seen, get?_valuesFor x category (by rw [h]; rfl), h]
    rfl
  have hshown {α : Type} {Shows : α → Value → Prop} {value : α → Value}
      (h : ∀ a, Shows a (value a)) (items : List α) : List.Forall₂ Shows items (items.map value) :=
    List.forall₂_map_right_iff.2 (List.forall₂_same.2 fun a _ => h a)
  constructor
  case project => exact ⟨_, hseen rfl, shows_project _⟩
  case framework => exact (hseen rfl).trans rfl
  case language => exact (hseen rfl).trans rfl
  case version => exact (hseen rfl).trans rfl
  case operations =>
    refine ⟨_, (hseen rfl).trans ?_, hshown shows_operation _⟩
    rw [lookThrough_shared _ (lookThrough_operation l)]
    rfl
  case categories =>
    refine (hseen rfl).trans ?_
    rw [lookThrough_record, record, List.map_map, leave]
    simp only [List.mapIdx_eq_zipIdx_map, List.map_map, Function.comp_def,
      lookThrough_shared _ (lookThrough_ofString l)]
  case routes =>
    refine (hseen rfl).trans ?_
    rw [lookThrough_record, record]
    simp only [List.map_map, Function.comp_def, lookThrough_ofString, leave]
  case types =>
    refine ⟨_, (hseen rfl).trans rfl, ?_⟩
    rw [lookThroughItems_eq_map]
    refine forall₂_pick l _ ?_
    rw [List.mapIdx_eq_zipIdx_map, List.mapIdx_eq_zipIdx_map, List.map_map,
      List.forall₂_map_left_iff, List.forall₂_map_right_iff]
    exact List.forall₂_same.2 fun t _ => shows_type l t.2 t.1
  case capabilities =>
    refine ⟨_, (hseen rfl).trans ?_, hshown shows_capability _⟩
    rw [lookThrough_shared _ (lookThrough_capability l)]
    rfl
  case requiredCapabilities =>
    refine (hseen rfl).trans ?_
    rw [lookThrough_shared _ (lookThrough_ofString l)]
    rfl
  case operationCount => exact (hseen rfl).trans rfl
  case typeCount => exact (hseen rfl).trans rfl

/-! ## Nothing taken -/

theorem pick_of_left_nil (h : l.left = []) (spot : Spot) (items : List α) :
    l.pick spot items = items := by
  rw [Loans.pick, Loans.positions?, h]
  rfl

/-- A context of whose lists nothing was taken is as it was. -/
theorem leave_of_left_nil (h : l.left = []) (x : Context) : x.leave l = x := by
  have htype (i : Nat) (t : TypeEntry) : t.leave l i = t := by
    simp only [TypeEntry.leave, pick_of_left_nil h]
  simp only [leave, pick_of_left_nil h, htype, List.mapIdx_eq_zipIdx_map, Prod.mk.eta,
    List.zipIdx_map_fst]

theorem shownFor_valuesFor (x : Context) (category : Option String) :
    ShownFor x category (x.valuesFor category) := by
  have hshown := shown_leave .untouched x category
  rw [leave_of_left_nil rfl] at hshown
  refine ⟨hshown, ?_, fun k hk => ?_, fun e he => ?_⟩
  · cases category with
    | none => simp [seen, valuesFor, values, Scope.get?]
    | some k => simp [seen, valuesFor, values, Scope.get?, lookThrough_ofString]
  · obtain rfl := Option.mem_def.1 hk
    refine ⟨(x.operationsIn k).map OperationEntry.value, ?_, ?_⟩
    · have hget : (x.valuesFor (some k)).get? "category_operations" =
          some (shared .chosen OperationEntry.value (x.operationsIn k)) := by
        simp [valuesFor, values, Scope.get?]
      rw [seen, hget, Option.map_some, lookThrough_shared _ (lookThrough_operation _),
        pick_of_left_nil rfl]
    · rw [List.forall₂_map_right_iff, operationsIn]
      exact List.forall₂_same.2 fun o _ => shows_operation o
  · have hvalues : x.values.map Prod.fst = shownNames := rfl
    cases category with
    | none => exact Or.inl (hvalues ▸ List.mem_map_of_mem he)
    | some k =>
      rcases List.mem_append.1 he with he | he
      · exact Or.inl (hvalues ▸ List.mem_map_of_mem he)
      · simp only [List.mem_cons, List.not_mem_nil, or_false] at he
        rcases he with rfl | rfl <;> simp

/-! ## What remains -/

/-- A type of which nothing was altered, and some fields may be gone. -/
structure TypeRemains (t₀ t : TypeEntry) : Prop where
  name : t.name = t₀.name
  description : t.description = t₀.description
  fields : t.fields.Subperm t₀.fields
  requiredFields : t.requiredFields.Subperm t₀.requiredFields

/-- A context of which nothing was altered, and some items of its lists may be gone, the others in
    another order. -/
structure Remains (x₀ x : Context) : Prop where
  project : x.project = x₀.project
  framework : x.framework = x₀.framework
  language : x.language = x₀.language
  version : x.version = x₀.version
  operations : x.operations.Subperm x₀.operations
  categories : List.Forall₂ (fun g₀ g => g.1 = g₀.1 ∧ g.2.Subperm g₀.2) x₀.categories x.categories
  routes : x.routes = x₀.routes
  typeNames : (x.types.map TypeEntry.name).Subperm (x₀.types.map TypeEntry.name)
  types : ∀ t ∈ x.types, ∃ t₀ ∈ x₀.types, TypeRemains t₀ t
  capabilities : x.capabilities.Subperm x₀.capabilities
  requiredCapabilities : x.requiredCapabilities.Subperm x₀.requiredCapabilities
  operationCount : x.operationCount = x₀.operationCount
  typeCount : x.typeCount = x₀.typeCount

theorem filterMap_range (items : List α) :
    (List.range items.length).filterMap (items[·]?) = items := by
  induction items using List.reverseRecOn with
  | nil => rfl
  | append_singleton items a ih =>
    have hfirst : (List.range items.length).filterMap ((items ++ [a])[·]?) =
        (List.range items.length).filterMap (items[·]?) :=
      List.filterMap_congr fun i hi => List.getElem?_append_left (List.mem_range.1 hi)
    rw [List.length_append, List.length_singleton, List.range_succ, List.filterMap_append, hfirst,
      ih]
    simp

/-- What is left of a list are some of its items. -/
theorem pick_subperm (l : Loans) (spot : Spot) (items : List α) :
    (l.pick spot items).Subperm items := by
  unfold Loans.pick
  split
  · next ps _ =>
    -- positions behind the end have no item, and the others are among those of all items
    let inner := ps.1.filter (· < items.length)
    have hinner : ps.1.filterMap (items[·]?) = inner.filterMap (items[·]?) := by
      rw [List.filterMap_filter]
      refine List.filterMap_congr fun i _ => ?_
      by_cases hi : i < items.length
      · simp [hi]
      · simp [hi]
    have hrange : inner.Subperm (List.range items.length) :=
      List.subperm_of_subset (ps.2.filter _) fun i hi => by
        simpa using (List.mem_filter.1 hi).2
    obtain ⟨is, hperm, hsub⟩ := hrange
    have hall := hsub.filterMap (items[·]?)
    rw [filterMap_range] at hall
    rw [hinner]
    exact ⟨_, hperm.filterMap _, hall⟩
  · exact List.Subperm.refl _

namespace Remains

theorem refl (x : Context) : Remains x x where
  project := rfl
  framework := rfl
  language := rfl
  version := rfl
  operations := .refl _
  categories := List.forall₂_same.2 fun _ _ => ⟨rfl, .refl _⟩
  routes := rfl
  typeNames := .refl _
  types t ht := ⟨t, ht, rfl, rfl, .refl _, .refl _⟩
  capabilities := .refl _
  requiredCapabilities := .refl _
  operationCount := rfl
  typeCount := rfl

theorem trans {x y z : Context} (h : Remains x y) (h' : Remains y z) : Remains x z where
  project := h'.project.trans h.project
  framework := h'.framework.trans h.framework
  language := h'.language.trans h.language
  version := h'.version.trans h.version
  operations := h'.operations.trans h.operations
  categories := by
    have h := h.categories
    have h' := h'.categories
    generalize x.categories = as, y.categories = bs, z.categories = cs at h h'
    induction h generalizing cs with
    | nil => cases h'; exact .nil
    | cons hab _ ih =>
      cases h' with
      | cons hbc hrest => exact .cons ⟨hbc.1.trans hab.1, hbc.2.trans hab.2⟩ (ih _ hrest)
  routes := h'.routes.trans h.routes
  typeNames := h'.typeNames.trans h.typeNames
  types t ht := by
    obtain ⟨t₁, ht₁, ht⟩ := h'.types t ht
    obtain ⟨t₀, ht₀, ht₁⟩ := h.types t₁ ht₁
    exact ⟨t₀, ht₀, ht.name.trans ht₁.name, ht.description.trans ht₁.description,
      ht.fields.trans ht₁.fields, ht.requiredFields.trans ht₁.requiredFields⟩
  capabilities := h'.capabilities.trans h.capabilities
  requiredCapabilities := h'.requiredCapabilities.trans h.requiredCapabilities
  operationCount := h'.operationCount.trans h.operationCount
  typeCount := h'.typeCount.trans h.typeCount

/-- The categories keep their names and their order. -/
theorem categoryNames {x y : Context} (h : Remains x y) :
    y.categories.map Prod.fst = x.categories.map Prod.fst := by
  rw [← List.forall₂_eq_eq_eq, List.forall₂_map_left_iff, List.forall₂_map_right_iff]
  exact (h.categories.imp fun _ _ hg => hg.1).flip

/-- Templates take items out of lists or turn them around, and nothing else. -/
theorem leave (l : Loans) (x : Context) : Remains x (x.leave l) where
  project := rfl
  framework := rfl
  language := rfl
  version := rfl
  operations := pick_subperm _ _ _
  categories := forall₂_mapIdx (fun _ _ => ⟨rfl, pick_subperm _ _ _⟩) x.categories
  routes := rfl
  typeNames := by
    have hnames : (x.types.mapIdx (TypeEntry.leave l)).map TypeEntry.name =
        x.types.map TypeEntry.name := by
      rw [← List.forall₂_eq_eq_eq, List.forall₂_map_left_iff, List.forall₂_map_right_iff]
      have hsame (i : Nat) (t : TypeEntry) : (t.leave l i).name = t.name := rfl
      exact (forall₂_mapIdx (f := TypeEntry.leave l) hsame x.types).flip
    rw [Context.leave, ← pick_map, hnames]
    exact pick_subperm _ _ _
  types t ht := by
    obtain ⟨i, hi, rfl⟩ := List.mem_mapIdx.1 ((pick_subperm _ _ _).subset ht)
    exact ⟨x.types[i], List.getElem_mem hi, rfl, rfl, pick_subperm _ _ _, pick_subperm _ _ _⟩
  capabilities := pick_subperm _ _ _
  requiredCapabilities := pick_subperm _ _ _
  operationCount := rfl
  typeCount := rfl

end Remains

/-! ## Values without routines -/

section

variable {p : Permit}

theorem allowed_record {entries : Scope} (h : ∀ e ∈ entries, e.2.allowed p = true) :
    (record entries).allowed p = true :=
  allowedEntries_iff.2 (List.forall_mem_map.2 fun e he => ⟨rfl, h e he⟩)

theorem allowed_shared (list : Shared) {value : α → Value} (h : ∀ a, (value a).allowed p = true)
    (items : List α) : (shared list value items).allowed p = true :=
  allowedItems_iff.2 (List.forall_mem_map.2 fun a _ => h a)

theorem allowed_ofString (s : String) : (Value.ofString s).allowed p = true := rfl

theorem allowed_operation (o : OperationEntry) : o.value.allowed p = true :=
  allowed_record (by simp [allowed_ofString])

theorem allowed_type (i : Nat) (t : TypeEntry) : (t.value i).allowed p = true := by
  have hfield (f : FieldEntry) : f.value.allowed p = true :=
    allowed_record (by simp [allowed_ofString])
  exact allowed_record (by
    simp [allowed_ofString, allowed_shared _ hfield, allowed_shared _ allowed_ofString])

/-- No value of a context carries a routine, or a function of a list. -/
theorem allowed_valuesFor (x : Context) (category : Option String) :
    allowedNames p (x.valuesFor category) = true := by
  have hcapability (c : Capability) : (capabilityValue c).allowed p = true :=
    allowed_record (by simp [allowed_ofString])
  have hproject : (projectValue x.project).allowed p = true :=
    allowed_record (by simp [allowed_ofString])
  have hcategories : (record (x.categories.mapIdx fun i g =>
      (g.1, shared (.category i) Value.ofString g.2))).allowed p = true := by
    refine allowed_record fun e he => ?_
    obtain ⟨i, hi, rfl⟩ := List.mem_mapIdx.1 he
    exact allowed_shared _ allowed_ofString _
  have hroutes : (record (x.routes.map fun r => (r.1, Value.ofString r.2))).allowed p = true :=
    allowed_record (List.forall_mem_map.2 fun r _ => allowed_ofString r.2)
  have htypes : (Value.lent (Shared.spot .types) (x.types.mapIdx TypeEntry.value)).allowed p =
      true := by
    refine allowedItems_iff.2 fun v hv => ?_
    obtain ⟨i, hi, rfl⟩ := List.mem_mapIdx.1 hv
    exact allowed_type i x.types[i]
  have hvalues : ∀ e ∈ x.values, e.2.allowed p = true := by
    simp only [values, List.forall_mem_cons, hproject, allowed_ofString,
      allowed_shared _ allowed_operation, hcategories, hroutes, htypes,
      allowed_shared _ hcapability, allowed_shared _ allowed_ofString, true_and]
    exact ⟨rfl, rfl, rfl, by simp⟩
  refine allowedNames_iff.2 ?_
  cases category with
  | none => exact hvalues
  | some k =>
    refine List.forall_mem_append.2 ⟨hvalues, ?_⟩
    simp [allowed_ofString, allowed_shared _ allowed_operation]

end

end Context

end Scaffold
