/-
  When reading a source fails, and with which code: `readTree_verdict`.

  The tree says by itself which operations, fields and capabilities are found (`operationNames`,
  `typeFields`, `capabilityNames`), and what comes of reading it depends on these only: broken
  source comes first, then the first field with a fault, then the first thing that is missing.
  `collect_cases` carries this through the walk over the declarations, and `readTree_judged`
  through the checks behind it.
-/
import Mathlib
import Scaffold.Proofs.Declarations

namespace Scaffold.Contract

open Source

variable {t : SyntaxTree} {c : Conventions}

/-! ## What a tree declares -/

/-- The interfaces among top-level nodes, out of their exports. -/
def interfaces (ms : List (Option SyntaxTree × SyntaxTree)) : List SyntaxTree :=
  (ms.map fun m => unwrapExport m.2).filter fun t => t.kind == .interfaceDeclaration

/-- The names of the operations in source order. -/
def operationNames (c : Conventions) (t : SyntaxTree) : List String :=
  (interfaces (topLevel t)).flatMap (operationsOf c)

/-- The fields of types in source order, each with the name of its type. -/
def typeFields (c : Conventions) (t : SyntaxTree) : List (String × SyntaxTree) :=
  (interfaces (topLevel t)).flatMap (fieldsOf c)

/-- The names of the capabilities in source order. -/
def capabilityNames (c : Conventions) (t : SyntaxTree) : List String :=
  (interfaces (topLevel t)).flatMap (capabilitiesOf c)

/-- A top-level declaration whose version holds an escape beyond the last code point. -/
def DeclaresLargeVersion (c : Conventions) (t : SyntaxTree) : Prop :=
  (unwrapExport t).kind = .variableDeclaration ∧
    ∃ d ∈ (unwrapExport t).namedChildren, HoldsLargeVersion c d

/-- The source is not broken and each field of a type has a type with a name. -/
def Readable (c : Conventions) (t : SyntaxTree) : Prop :=
  ¬ t.Broken ∧ NoFault (typeFields c t)

/-! ## The walk over the declarations -/

theorem interfaces_cons (m : Option SyntaxTree × SyntaxTree)
    (ms : List (Option SyntaxTree × SyntaxTree)) :
    interfaces (m :: ms) = interfaces [m] ++ interfaces ms := by
  simp only [interfaces, List.map_cons, List.map_nil, List.filter_cons, List.filter_nil]
  split <;> rfl

/-- A node and its elder sibling, as sources have them. -/
def PairIsSound (m : Option SyntaxTree × SyntaxTree) : Prop :=
  m.2.Every Sound ∧ ∀ p ∈ m.1, p.Every Sound

theorem pairIsSound_topLevel (h : t.Every Sound) {m : Option SyntaxTree × SyntaxTree}
    (hm : m ∈ topLevel t) : PairIsSound m :=
  forall_withPrevious (fun _ hu => h.child hu) (List.mem_filter.1 hm).1

theorem lists_nil (version : Option Text) : Lists { version } [] [] [] :=
  ⟨rfl, rfl, by simp, rfl⟩

theorem findings_cases {m : Option SyntaxTree × SyntaxTree} (h : PairIsSound m)
    (hl : ¬ DeclaresLargeVersion c m.2) :
    (∃ part, findings c m = .ok part ∧
      Lists part ((interfaces [m]).flatMap (operationsOf c)) ((interfaces [m]).flatMap (fieldsOf c))
        ((interfaces [m]).flatMap (capabilitiesOf c)) ∧
      NoFault ((interfaces [m]).flatMap (fieldsOf c))) ∨
    ∃ type field f, FirstFault ((interfaces [m]).flatMap (fieldsOf c)) type field f ∧
      findings c m = .error (f.inField type (memberNameOf field)) := by
  have ht := every_unwrapExport h.1
  simp only [findings, interfaces, List.map_cons, List.map_nil, List.filter_cons, List.filter_nil]
  by_cases hv : (unwrapExport m.2).kind = .variableDeclaration
  · obtain ⟨version, hversion⟩ := findVersion_ok (c := c)
      (fun d hd => ht.child (mem_children_of_namedChildren hd)) fun d hd hlarge =>
        hl ⟨hv, d, hd, hlarge⟩
    refine Or.inl ⟨{ version }, ?_, ?_, ?_⟩
    · simp [hv, hversion, Except.map]
    · simpa [hv] using lists_nil version
    · simp [hv, NoFault]
  by_cases hi : (unwrapExport m.2).kind = .interfaceDeclaration
  · simpa [hi] using interfaceFindings_cases (c := c) (isText_of_sound ht) fun p hp =>
      isText_of_sound (h.2 p hp)
  · refine Or.inl ⟨{}, ?_, ?_, ?_⟩
    · simp [hv, hi]
    · simpa [hi] using lists_nil none
    · simp [hi, NoFault]

theorem FirstFault.append_right {xs : List (String × SyntaxTree)} {type : String}
    {field : SyntaxTree} {f : TypeFault} (h : FirstFault xs type field f)
    (ys : List (String × SyntaxTree)) : FirstFault (xs ++ ys) type field f := by
  obtain ⟨before, after, rfl, hb, hf⟩ := h
  exact ⟨before, after ++ ys, by simp, hb, hf⟩

theorem FirstFault.append_left {xs ys : List (String × SyntaxTree)} {type : String}
    {field : SyntaxTree} {f : TypeFault} (hxs : NoFault xs) (h : FirstFault ys type field f) :
    FirstFault (xs ++ ys) type field f := by
  obtain ⟨before, after, rfl, hb, hf⟩ := h
  refine ⟨xs ++ before, after, by simp, fun p hp => ?_, hf⟩
  rcases List.mem_append.1 hp with hp | hp
  · exact hxs p hp
  · exact hb p hp

/-- The walk finds all that the declarations list, or stops at the first field with a fault. -/
theorem collect_cases {ms : List (Option SyntaxTree × SyntaxTree)} (h : ∀ m ∈ ms, PairIsSound m)
    (hl : ∀ m ∈ ms, ¬ DeclaresLargeVersion c m.2) {found : Findings} {ops caps : List String}
    {fields : List (String × SyntaxTree)} (hfound : Lists found ops fields caps) :
    (∃ all, collect c found ms = (all, none) ∧
      Lists all (ops ++ (interfaces ms).flatMap (operationsOf c))
        (fields ++ (interfaces ms).flatMap (fieldsOf c))
        (caps ++ (interfaces ms).flatMap (capabilitiesOf c)) ∧
      NoFault ((interfaces ms).flatMap (fieldsOf c))) ∨
    ∃ type field f all, FirstFault ((interfaces ms).flatMap (fieldsOf c)) type field f ∧
      collect c found ms = (all, some (f.inField type (memberNameOf field))) := by
  induction ms generalizing found ops fields caps with
  | nil =>
    exact Or.inl
      ⟨found, rfl, by simpa [interfaces] using hfound, by simp [interfaces, NoFault]⟩
  | cons m ms ih =>
    rw [interfaces_cons]
    simp only [List.flatMap_append]
    rcases findings_cases (h m (List.mem_cons_self ..)) (hl m (List.mem_cons_self ..)) with
      ⟨part, hpart, hlists, hno⟩ | ⟨type, field, f, hfirst, he⟩
    · rcases ih (fun x hx => h x (List.mem_cons_of_mem m hx))
        (fun x hx => hl x (List.mem_cons_of_mem m hx)) (hfound.append hlists) with
        ⟨all, hall, hlists', hno'⟩ | ⟨type, field, f, all, hfirst, hall⟩
      · refine Or.inl ⟨all, by rw [collect, hpart]; exact hall, by simpa using hlists', ?_⟩
        intro p hp
        rcases List.mem_append.1 hp with hp | hp
        · exact hno p hp
        · exact hno' p hp
      · exact Or.inr
          ⟨type, field, f, all, hfirst.append_left hno, by rw [collect, hpart]; exact hall⟩
    · exact Or.inr ⟨type, field, f, found, hfirst.append_right _, by rw [collect, he]⟩

/-! ## The checks behind the walk -/

/-- The code of a failure. -/
def codeOf : Except Failure Specification → Option String
  | .error (.coded e _) => some e.code
  | _ => none

section

variable (path : String)

@[simp] theorem codeOf_ok (s : Specification) : codeOf (.ok s) = none := rfl

@[simp] theorem codeOf_shapeless : codeOf (.error .shapeless) = none := rfl

@[simp] theorem codeOf_broken (p : Position) :
    codeOf (.error (brokenFailure path p)) = some "AXE-P006" := rfl

@[simp] theorem codeOf_unresolved (type field text : String) :
    codeOf (.error ((ReadFault.unresolved type field text).failure path)) = some "AXE-P007" := rfl

@[simp] theorem codeOf_noOperations :
    codeOf (.error (Missing.operations.failure path)) = some "AXE-P002" := rfl

@[simp] theorem codeOf_noTypes :
    codeOf (.error (Missing.types.failure path)) = some "AXE-P003" := rfl

@[simp] theorem codeOf_noOperation (name : String) :
    codeOf (.error ((Missing.operation name).failure path)) = some "AXE-P004" := rfl

@[simp] theorem codeOf_noCapabilities :
    codeOf (.error (Missing.capabilities.failure path)) = some "AXE-P005" := rfl

end

/-- The required operation that is absent from a list of names and comes first. -/
def firstAbsent (names : List String) : Option String :=
  ["Get", "List", "Create", "Update", "Delete"].find? fun name => decide (name ∉ names)

/-- What may come of reading a tree, each result with its condition. -/
inductive Judged (path : String) (c : Conventions) (t : SyntaxTree) :
    Except Failure Specification → Prop
  | broken (p : Position) : t.Broken → Judged path c t (.error (brokenFailure path p))
  | unresolved {type : String} {field : SyntaxTree} {text : String} : ¬ t.Broken →
      FirstFault (typeFields c t) type field (.unresolved text) →
      Judged path c t
        (.error ((ReadFault.unresolved type (memberNameOf field) text).failure path))
  | shapeless {type : String} {field : SyntaxTree} : ¬ t.Broken →
      FirstFault (typeFields c t) type field .shapeless → Judged path c t (.error .shapeless)
  | noOperations : Readable c t → operationNames c t = [] →
      Judged path c t (.error (Missing.operations.failure path))
  | noTypes : Readable c t → operationNames c t ≠ [] → typeFields c t = [] →
      Judged path c t (.error (Missing.types.failure path))
  | noOperation {name : String} : Readable c t → operationNames c t ≠ [] →
      typeFields c t ≠ [] → firstAbsent (operationNames c t) = some name →
      Judged path c t (.error ((Missing.operation name).failure path))
  | noCapabilities : Readable c t → operationNames c t ≠ [] → typeFields c t ≠ [] →
      firstAbsent (operationNames c t) = none → capabilityNames c t = [] →
      Judged path c t (.error (Missing.capabilities.failure path))
  | complete {found : Findings} : Readable c t → operationNames c t ≠ [] → typeFields c t ≠ [] →
      firstAbsent (operationNames c t) = none → capabilityNames c t ≠ [] →
      Lists found (operationNames c t) (typeFields c t) (capabilityNames c t) →
      Judged path c t (.ok found.specification)

theorem Lists.operations_eq_nil {found : Findings} {ops caps : List String}
    {fields : List (String × SyntaxTree)} (h : Lists found ops fields caps) :
    found.operations = [] ↔ ops = [] := by
  rw [← h.operations, List.map_eq_nil_iff]

theorem Lists.capabilities_eq_nil {found : Findings} {ops caps : List String}
    {fields : List (String × SyntaxTree)} (h : Lists found ops fields caps) :
    found.capabilities = [] ↔ caps = [] := by
  rw [← h.capabilities, List.map_eq_nil_iff]

theorem Lists.types_eq_nil {found : Findings} {ops caps : List String}
    {fields : List (String × SyntaxTree)} (h : Lists found ops fields caps) :
    found.types = [] ↔ fields = [] := by
  constructor
  · intro ht
    have := h.fields
    rw [ht] at this
    exact List.map_eq_nil_iff.1 this.symm
  · intro hf
    have := h.fields
    rw [hf, List.map_nil, List.flatMap_eq_nil_iff] at this
    refine List.eq_nil_iff_forall_not_mem.2 fun type ht => h.nonempty type ht ?_
    exact List.map_eq_nil_iff.1 (this type ht)

/-- What is found decides what is missing. -/
theorem judged_of_found (path : String) {found : Findings} (hread : Readable c t)
    (h : Lists found (operationNames c t) (typeFields c t) (capabilityNames c t)) :
    Judged path c t ((missing? found.specification).elim (.ok found.specification)
      fun m => .error (m.failure path)) := by
  have hnames : found.specification.operationNames = operationNames c t := h.operations
  have habsent : (requiredOperations.find? fun name =>
      !found.specification.operationNames.contains name) =
        firstAbsent (operationNames c t) := by
    rw [hnames]
    simp [firstAbsent, requiredOperations]
  unfold missing?
  rw [habsent]
  split
  · next he => exact .noOperations hread (h.operations_eq_nil.1 (List.isEmpty_iff.1 he))
  next hops =>
  have hops : operationNames c t ≠ [] := fun he =>
    hops (List.isEmpty_iff.2 (h.operations_eq_nil.2 he))
  split
  · next he => exact .noTypes hread hops (h.types_eq_nil.1 (List.isEmpty_iff.1 he))
  next htypes =>
  have htypes : typeFields c t ≠ [] := fun he => htypes (List.isEmpty_iff.2 (h.types_eq_nil.2 he))
  split
  · next name hname => exact .noOperation hread hops htypes hname
  next hnone =>
  split
  · next he =>
    exact .noCapabilities hread hops htypes hnone
      (h.capabilities_eq_nil.1 (List.isEmpty_iff.1 he))
  · next hcaps =>
    exact .complete hread hops htypes hnone
      (fun he => hcaps (List.isEmpty_iff.2 (h.capabilities_eq_nil.2 he))) h

theorem readTree_judged (path : String) (source : Text) (ht : t.Every Sound)
    (hl : ∀ m ∈ topLevel t, ¬ DeclaresLargeVersion c m.2) :
    Judged path c t (readTree path c source t).result := by
  unfold readTree
  split
  · next e he =>
    refine .broken _ ?_
    by_contra hb
    rw [(SyntaxTree.firstError_eq_none t).2 hb] at he
    cases he
  · next hnone =>
    have hb := (SyntaxTree.firstError_eq_none t).1 hnone
    rcases collect_cases (fun m hm => pairIsSound_topLevel ht hm) hl (lists_nil none) with
      ⟨all, hall, hlists, hno⟩ | ⟨type, field, f, all, hfirst, hall⟩
    · have hjudged := judged_of_found path ⟨hb, hno⟩ hlists
      rw [hall]
      cases hm : missing? all.specification with
      | none =>
        rw [hm] at hjudged
        simp only [hm]
        exact hjudged
      | some m =>
        rw [hm] at hjudged
        simp only [hm]
        exact hjudged
    · rw [hall]
      obtain ⟨-, -, -, -, u, -, hf⟩ := id hfirst
      rcases hf.cases with rfl | ⟨text, rfl⟩
      · exact .shapeless hb hfirst
      · exact .unresolved hb hfirst

/-! ## The verdict -/

theorem FieldFault.unique {u : SyntaxTree} {f g : TypeFault} (hf : FieldFault u f)
    (hg : FieldFault u g) : f = g := by
  obtain ⟨type, htype, hf⟩ := hf
  obtain ⟨type', htype', hg⟩ := hg
  rw [htype] at htype'
  cases htype'
  exact hf.unique hg

@[simp] theorem not_firstFault_nil (type : String) (field : SyntaxTree) (f : TypeFault) :
    ¬ FirstFault [] type field f := by
  rintro ⟨before, after, he, -⟩
  exact absurd he (by simp)

theorem FirstFault.not_noFault {fields : List (String × SyntaxTree)} {type : String}
    {field : SyntaxTree} {f : TypeFault} (h : FirstFault fields type field f) :
    ¬ NoFault fields := by
  obtain ⟨before, after, rfl, -, hf⟩ := h
  intro hno
  exact hno (type, field) (by simp) f hf

theorem FirstFault.unique {fields : List (String × SyntaxTree)} {type type' : String}
    {field field' : SyntaxTree} {f g : TypeFault} (hf : FirstFault fields type field f)
    (hg : FirstFault fields type' field' g) : type = type' ∧ field = field' ∧ f = g := by
  obtain ⟨before, after, rfl, hb, hf⟩ := hf
  obtain ⟨before', after', he, hb', hg⟩ := hg
  induction before generalizing before' with
  | nil =>
    cases before' with
    | nil =>
      cases he
      exact ⟨rfl, rfl, hf.unique hg⟩
    | cons p before' =>
      cases he
      exact absurd hf (hb' (type, field) (by simp) f)
  | cons p before ih =>
    cases before' with
    | nil =>
      cases he
      exact absurd hg (hb (type', field') (by simp) g)
    | cons q before' =>
      obtain ⟨-, he⟩ := List.cons.inj he
      exact ih (fun x hx => hb x (List.mem_cons_of_mem p hx)) before' he fun x hx =>
        hb' x (List.mem_cons_of_mem q hx)

theorem FirstFault.iff {fields : List (String × SyntaxTree)} {type type' : String}
    {field field' : SyntaxTree} {f g : TypeFault} (h : FirstFault fields type field f) :
    FirstFault fields type' field' g ↔ type' = type ∧ field' = field ∧ g = f := by
  constructor
  · exact fun h' => h'.unique h
  · rintro ⟨rfl, rfl, rfl⟩
    exact h

theorem firstAbsent_eq_none {names : List String} :
    firstAbsent names = none ↔ ∀ name ∈ requiredOperations, name ∈ names := by
  simp [firstAbsent, requiredOperations]

/-- What comes of reading a tree, by the codes of the failures in their order. -/
structure Verdict (path : String) (c : Conventions) (t : SyntaxTree)
    (r : Except Failure Specification) : Prop where
  /-- Broken source comes first. -/
  broken : codeOf r = some "AXE-P006" ↔ t.Broken
  /-- Then a field whose union has no name, unless a field without any shape comes before it. -/
  unresolved : codeOf r = some "AXE-P007" ↔
    ¬ t.Broken ∧ ∃ type field text, FirstFault (typeFields c t) type field (.unresolved text)
  unresolved_names (type : String) (field : SyntaxTree) (text : String) : ¬ t.Broken →
    FirstFault (typeFields c t) type field (.unresolved text) →
    r = .error ((ReadFault.unresolved type (memberNameOf field) text).failure path)
  /-- A field whose type lacks the part that names it stops the reader without a code. -/
  shapeless : r = .error .shapeless ↔
    ¬ t.Broken ∧ ∃ type field, FirstFault (typeFields c t) type field .shapeless
  noOperations : codeOf r = some "AXE-P002" ↔ Readable c t ∧ operationNames c t = []
  noTypes : codeOf r = some "AXE-P003" ↔
    Readable c t ∧ operationNames c t ≠ [] ∧ typeFields c t = []
  noOperation : codeOf r = some "AXE-P004" ↔
    Readable c t ∧ operationNames c t ≠ [] ∧ typeFields c t ≠ [] ∧
      ∃ name ∈ requiredOperations, name ∉ operationNames c t
  noOperation_names (name : String) : Readable c t → operationNames c t ≠ [] →
    typeFields c t ≠ [] → firstAbsent (operationNames c t) = some name →
    r = .error ((Missing.operation name).failure path)
  noCapabilities : codeOf r = some "AXE-P005" ↔
    Readable c t ∧ operationNames c t ≠ [] ∧ typeFields c t ≠ [] ∧
      (∀ name ∈ requiredOperations, name ∈ operationNames c t) ∧ capabilityNames c t = []
  complete : (∃ s, r = .ok s) ↔
    Readable c t ∧ operationNames c t ≠ [] ∧ typeFields c t ≠ [] ∧
      (∀ name ∈ requiredOperations, name ∈ operationNames c t) ∧ capabilityNames c t ≠ []
  contents (s : Specification) : r = .ok s →
    s.operations ≠ [] ∧ s.types ≠ [] ∧ s.capabilities ≠ [] ∧
      (∀ name ∈ requiredOperations, name ∈ s.operationNames) ∧ ∀ type ∈ s.types, type.fields ≠ []

@[simp] theorem Missing.failure_ne_shapeless (path : String) (m : Missing) :
    m.failure path ≠ .shapeless := by
  cases m <;> simp [Missing.failure, parserFailure, Failure.ofArea]

@[simp] theorem brokenFailure_ne_shapeless (path : String) (p : Position) :
    brokenFailure path p ≠ .shapeless := by
  simp [brokenFailure, parserFailure, Failure.ofArea]

@[simp] theorem unresolved_ne_shapeless (path type field text : String) :
    (ReadFault.unresolved type field text).failure path ≠ .shapeless := by
  simp [ReadFault.failure, parserFailure, Failure.ofArea]

theorem Judged.verdict {path : String} {r : Except Failure Specification}
    (h : Judged path c t r) : Verdict path c t r := by
  have hnone (hr : Readable c t) (type : String) (field : SyntaxTree) (f : TypeFault) :
      ¬ FirstFault (typeFields c t) type field f := fun hf => hf.not_noFault hr.2
  have habsent : (∃ name ∈ requiredOperations, name ∉ operationNames c t) ↔
      firstAbsent (operationNames c t) ≠ none := by
    rw [ne_eq, firstAbsent_eq_none]
    push Not
    rfl
  -- each result has a code of its own, and its condition excludes those of the others
  cases h with
  | broken p hb =>
    have hr : ¬ Readable c t := fun h => h.1 hb
    constructor <;> simp [hb, hr]
  | unresolved hb hf =>
    have hr : ¬ Readable c t := fun h => hf.not_noFault h.2
    constructor
    case unresolved_names =>
      intro type field text _ h
      obtain ⟨rfl, rfl, he⟩ := hf.unique h
      cases he
      rfl
    all_goals simp [hb, hr, hf.iff]
  | shapeless hb hf =>
    have hr : ¬ Readable c t := fun h => hf.not_noFault h.2
    constructor <;> simp [hb, hr, hf.iff]
  | noOperations hr hops =>
    constructor <;> simp [hr, hr.1, hnone hr, hops]
  | noTypes hr hops htypes =>
    constructor <;> simp [hr, hr.1, hops, htypes]
  | noOperation hr hops htypes hname =>
    constructor <;>
      simp [hr, hr.1, hnone hr, hops, htypes, hname, habsent, ← firstAbsent_eq_none]
  | noCapabilities hr hops htypes hname hcaps =>
    constructor <;>
      simp [hr, hr.1, hnone hr, hops, htypes, hname, hcaps, habsent, ← firstAbsent_eq_none]
  | @complete found hr hops htypes hname hcaps hlists =>
    have hcontents : found.operations ≠ [] ∧ found.types ≠ [] ∧ found.capabilities ≠ [] ∧
        (∀ name ∈ requiredOperations, name ∈ found.specification.operationNames) ∧
        ∀ type ∈ found.types, type.fields ≠ [] := by
      refine ⟨fun he => hops (hlists.operations_eq_nil.1 he),
        fun he => htypes (hlists.types_eq_nil.1 he),
        fun he => hcaps (hlists.capabilities_eq_nil.1 he), ?_, hlists.nonempty⟩
      rw [firstAbsent_eq_none, ← hlists.operations] at hname
      exact hname
    constructor
    case contents =>
      rintro s ⟨⟩
      exact hcontents
    all_goals simp [hr, hr.1, hnone hr, hops, htypes, hname, hcaps, habsent, ← firstAbsent_eq_none]

theorem noSurrogate_units {bytes : List UInt8} {cs : List Char}
    (h : Utf8.decode bytes = .ok cs) : (Utf8.units bytes).NoSurrogate := by
  intro n hn
  rw [Utf8.units_of_decode h] at hn
  obtain ⟨_, -, he⟩ := List.mem_map.1 hn
  cases he

/-- **The outcome of reading a source.** Reading the bytes of a text fails for the first of the
    reasons in `Verdict` that holds of its tree, with the code of that reason, and gives a complete
    specification otherwise. The one reason without a code is a field whose type has no part to
    take its name from. The same is so for every sound tree, whether or not the parser gives it. -/
theorem readTree_verdict (path : String) (c : Conventions) :
    (∀ bytes cs, Utf8.decode bytes = .ok cs →
      (∀ m ∈ topLevel (parse (Utf8.units bytes)), ¬ DeclaresLargeVersion c m.2) →
      Verdict path c (parse (Utf8.units bytes)) (readSource path c bytes).result) ∧
    ∀ source t, t.Every Sound → (∀ m ∈ topLevel t, ¬ DeclaresLargeVersion c m.2) →
      Verdict path c t (readTree path c source t).result := by
  constructor
  · intro bytes cs hbytes hl
    exact (readTree_judged path _ (parse_sound (noSurrogate_units hbytes)) hl).verdict
  · intro source t ht hl
    exact (readTree_judged path source ht hl).verdict

/-- The tree of an interface `ItemType` with these properties. -/
def itemTree (fields : List (String × SyntaxTree)) : SyntaxTree :=
  .node .program none 0 [] [interfaceTree "ItemType" fields]

/-- The type `null`. -/
def nullType : SyntaxTree := .leaf .literalType 0 (Text.ofString "null")

/-- The type `null | string`. -/
def emptyUnion : SyntaxTree :=
  .node .unionType none 0 [] [nullType, .leaf .otherType 0 (Text.ofString "string")]

/-- The type `const[]`, whose only parts are keywords and brackets. -/
def shapelessArray : SyntaxTree :=
  .node .arrayType none 0 [] [.leaf .token 0 (Text.ofString "const")]

theorem sound_itemTree {fields : List (String × SyntaxTree)} (h : ∀ f ∈ fields, f.2.Every Sound) :
    (itemTree fields).Every Sound := by
  have hnil : Text.NoSurrogate [] := by simp [Text.NoSurrogate]
  have hname {k : Kind} {r : Option Role} (hk : k ≠ .escape) (s : String) :
      (SyntaxTree.node k r 0 (Text.ofString s) []).Every Sound :=
    every_node hk (Text.noSurrogate_ofString s) (by simp)
  refine every_node (by simp) hnil (List.forall_mem_singleton.2 ?_)
  refine every_node (by simp) hnil (List.forall_mem_cons.2 ⟨hname (by simp) _, ?_⟩)
  refine List.forall_mem_singleton.2 (every_node (by simp) hnil fun d hd => ?_)
  obtain ⟨f, hf, rfl⟩ := List.mem_map.1 hd
  refine every_node (by simp) hnil (List.forall_mem_cons.2 ⟨hname (by simp) _, ?_⟩)
  exact List.forall_mem_singleton.2 (every_node (by simp) hnil
    (List.forall_mem_singleton.2 (h f hf)))

/-- Nothing declares no operation; of a union without a name and an array without shape the first
    one counts. -/
theorem readTree_verdict_item :
    codeOf (readSource "a" {} []).result = some "AXE-P002" ∧
    (readTree "a" {} [] (itemTree [("x", emptyUnion), ("y", shapelessArray)])).result =
        .error ((ReadFault.unresolved "ItemType" "x" "null").failure "a") ∧
      (readTree "a" {} [] (itemTree [("y", shapelessArray), ("x", emptyUnion)])).result =
        .error .shapeless := by
  obtain ⟨hsource, htree⟩ := readTree_verdict "a" {}
  have hnil : Text.NoSurrogate [] := by simp [Text.NoSurrogate]
  have hleaf {k : Kind} (hk : k ≠ .escape) (s : String) :
      (SyntaxTree.leaf k 0 (Text.ofString s)).Every Sound :=
    every_leaf.2 (sound_of_ne hk (Text.noSurrogate_ofString s))
  have hunion : emptyUnion.Every Sound := every_node (by simp) hnil
    (by simp [nullType, hleaf])
  have harray : shapelessArray.Every Sound := every_node (by simp) hnil (by simp [hleaf])
  have hlarge (fields : List (String × SyntaxTree)) :
      ∀ m ∈ topLevel (itemTree fields), ¬ DeclaresLargeVersion {} m.2 := by
    intro m hm
    rw [List.mem_singleton.1 hm]
    rintro ⟨hk, -⟩
    cases hk
  have hnull : wording (unwrap nullType) = "null" := by cbv
  have hnameless : FaultOf emptyUnion (.unresolved "null") :=
    hnull ▸ .nameless rfl rfl ⟨by decide, by rw [hnull]; simp [emptyWords]⟩
  have hx : memberNameOf (propertyTree ("x", emptyUnion)) = "x" := by cbv
  have hfields : typeFields {} (itemTree [("x", emptyUnion), ("y", shapelessArray)]) =
      [] ++ ("ItemType", propertyTree ("x", emptyUnion)) ::
        [("ItemType", propertyTree ("y", shapelessArray))] := by cbv
  have hfields' : typeFields {} (itemTree [("y", shapelessArray), ("x", emptyUnion)]) =
      [] ++ ("ItemType", propertyTree ("y", shapelessArray)) ::
        [("ItemType", propertyTree ("x", emptyUnion))] := by cbv
  refine ⟨?_, ?_, ?_⟩
  · have htop : topLevel (parse (Utf8.units [])) = [] := by cbv
    have hfields : typeFields {} (parse (Utf8.units [])) = [] := by cbv
    refine (hsource [] [] rfl (by simp [htop])).noOperations.2 ⟨⟨?_, ?_⟩, by cbv⟩
    · exact SyntaxTree.not_broken_of_hasError (by cbv)
    · simp [hfields, NoFault]
  · rw [← hx]
    exact (htree [] _ (sound_itemTree (by simp [hunion, harray]))
      (hlarge _)).unresolved_names "ItemType" _ "null" (SyntaxTree.not_broken_of_hasError (by cbv))
      ⟨[], _, hfields, by simp, emptyUnion, rfl, hnameless⟩
  · exact (htree [] _ (sound_itemTree (by simp [hunion, harray]))
      (hlarge _)).shapeless.2 ⟨SyntaxTree.not_broken_of_hasError (by cbv), "ItemType", _, [], _,
        hfields', by simp, shapelessArray, rfl, .noPart (Or.inl rfl) rfl⟩

end Scaffold.Contract
