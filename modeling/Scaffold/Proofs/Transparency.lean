/-
  A comment before a type is transparent exactly where it is not looked at: `readTree_commented`.

  What the interfaces of a source declare is the same exactly if it is read from the same nodes
  (`findings_commented`). The walk over the declarations keeps this (`collect_commented`), and
  outside of operations and the types of fields no comment shows at all.
-/
import Scaffold.Proofs.Members

namespace Scaffold.Contract

open Source SyntaxTree

variable {k t t' : SyntaxTree} {c : Conventions}

/-! ## Declarations with a comment -/

theorem versionValue_commented (hk : IsBlockComment k) (h : Commented k t t') :
    versionValue t' = versionValue t := by
  have hstring {u u' : SyntaxTree} (h : Commented k u u') : (u.kind == .string) = false := by
    have hholds := h.holdsTypes_kind
    revert hholds
    cases u.kind <;> simp [holdsTypes]
  unfold versionValue
  rcases h.child? hk .value with hsame | ⟨-, v, v', hv, hv', hin⟩
  · rw [hsame]
  rw [hv, hv']
  simp only [hin.kind_eq]
  split
  · next hkind =>
    -- an expression that is given a type starts with the expression
    cases hin with
    | @before kd _ _ _ _ _ _ _ _ ho =>
      have hkd : kd = .asExpression := by simpa [kind] using hkind
      rw [hkd] at ho
      cases ho
    | @inside kd _ _ _ _ _ pre c c' post _ _ hc _ h =>
      have hc' := h.isNamed_eq.trans hc
      simp only [namedChildren, children, List.filter_append, List.filter_cons, hc, hc', if_true]
      cases pre.filter isNamed with
      | nil => simp [Option.filter, hstring h, h.kind_eq]
      | cons p pre => rfl
  · simp [Option.filter, hstring hin, hin.kind_eq]

theorem findVersion_commented (hk : IsBlockComment k) {ts ts' : List SyntaxTree}
    (h : Among k ts ts') : findVersion c ts' = findVersion c ts := by
  have happend (pre : List SyntaxTree) {us us' : List SyntaxTree}
      (h : findVersion c us' = findVersion c us) :
      findVersion c (pre ++ us') = findVersion c (pre ++ us) := by
    induction pre with
    | nil => exact h
    | cons p pre ih => rw [List.cons_append, findVersion, ih, List.cons_append, findVersion]
  cases h with
  | before pre d post =>
    refine happend pre ?_
    rw [findVersion, hk.kind]
    rfl
  | inside pre post h =>
    refine happend pre ?_
    rw [findVersion, findVersion, h.kind_eq, childText, h.child?_name hk,
      versionValue_commented hk h, childText]

theorem unwrapExport_commented (hk : IsBlockComment k) (h : Commented k t t') :
    unwrapExport t' = unwrapExport t ∨ Commented k (unwrapExport t) (unwrapExport t') := by
  unfold unwrapExport
  rw [h.kind_eq]
  split
  · rcases h.child? hk .declaration with hsame | ⟨-, d, d', hd, hd', hin⟩
    · rw [hsame]
      cases t.child? .declaration with
      | none => exact Or.inr h
      | some d => exact Or.inl rfl
    · rw [hd, hd']
      exact Or.inr hin
  · exact Or.inr h

theorem findings_commented (hk : IsBlockComment k) (h : Commented k t t') (ht : t.IsText)
    (ht' : t'.IsText) {q : Option SyntaxTree} {part : Findings}
    (hpart : findings c (q, t) = .ok part)
    (hfresh : NoTypeCalled (wording k) part.specification) :
    ∃ part', findings c (q, t') = .ok part' ∧
      Compared c (interfaces [(q, t)]) (interfaces [(q, t')]) part part' := by
  have htext : (unwrapExport t).IsText := every_unwrapExport ht
  have htext' : (unwrapExport t').IsText := every_unwrapExport ht'
  simp only [findings, interfaces, List.map_cons, List.map_nil] at hpart ⊢
  rcases unwrapExport_commented hk h with hsame | hin
  · rw [hsame]
    exact ⟨part, hpart, .refl c _ part⟩
  generalize unwrapExport t = d at hpart hin htext
  generalize unwrapExport t' = d' at hin htext'
  rw [hin.kind_eq]
  by_cases hv : d.kind = .variableDeclaration
  · have hversion := findVersion_commented (c := c) hk (hin.namedChildren hk)
    refine ⟨part, by simpa [hv, hversion] using hpart, ?_⟩
    simpa [hv, hin.kind_eq] using Compared.refl c [] part
  by_cases hi : d.kind = .interfaceDeclaration
  · simp only [hi, hin.kind_eq, List.filter_cons, List.filter_nil] at hpart ⊢
    exact interfaceFindings_commented hk hin htext htext' hpart hfresh
  · refine ⟨part, by simpa [hv, hi] using hpart, ?_⟩
    simpa [hi, hin.kind_eq] using Compared.refl c [] part

/-! ## Sources with a comment -/

theorem interfaces_topLevel (t : SyntaxTree) : interfaces (topLevel t) =
    (t.namedChildren.map unwrapExport).filter fun d => d.kind == .interfaceDeclaration := by
  have hsnd (q : Option SyntaxTree) (ts : List SyntaxTree) :
      (withPrevious q ts).map Prod.snd = ts := by
    induction ts generalizing q with
    | nil => rfl
    | cons t ts ih => rw [withPrevious, List.map_cons, ih]
  have hnamed : (topLevel t).map Prod.snd = t.namedChildren := by
    rw [topLevel, namedChildren, ← hsnd none t.children, List.filter_map, hsnd]
    rfl
  rw [interfaces, ← hnamed, List.map_map]
  rfl

theorem interfaces_topLevel_cons {pre post : List SyntaxTree} {d : SyntaxTree}
    (hcs : t.children = pre ++ d :: post) (hd : d.isNamed = true) (q : Option SyntaxTree) :
    interfaces (topLevel t) = interfaces (topLevel (.node .program none 0 [] pre)) ++
      interfaces [(q, d)] ++ interfaces (topLevel (.node .program none 0 [] post)) := by
  rw [interfaces_topLevel, interfaces_topLevel, interfaces_topLevel, interfaces, namedChildren, hcs,
    namedChildren, namedChildren]
  simp only [children, List.filter_append, List.filter_cons, hd, if_true, List.map_append,
    List.map_cons, List.map_nil]
  split <;> simp

theorem Compared.foldl {ds ds' : List SyntaxTree} {part part' : Findings}
    (h : Compared c ds ds' part part') (es fs : List SyntaxTree) (pre post : List Findings) :
    Compared c (es ++ ds ++ fs) (es ++ ds' ++ fs)
      ((pre ++ part :: post).foldl Findings.append {})
      ((pre ++ part' :: post).foldl Findings.append {}) := by
  have hoperations := Findings.foldl_append Findings.operations (fun _ _ => rfl) {}
  have htypes := Findings.foldl_append Findings.types (fun _ _ => rfl) {}
  have hcapabilities := Findings.foldl_append Findings.capabilities (fun _ _ => rfl) {}
  constructor
  · rw [Findings.version_foldl_append, Findings.version_foldl_append]
    simp only [List.filterMap_append, List.filterMap_cons, h.version]
  · rw [hcapabilities, hcapabilities]
    simp [h.capabilities]
  · rw [hoperations, hoperations]
    simp [h.operations]
  · rw [htypes, htypes]
    simp [h.types]

theorem NoTypeCalled.of_mem {word : String} {parts : List Findings} {part : Findings}
    (h : NoTypeCalled word (parts.foldl Findings.append {}).specification) (hp : part ∈ parts) :
    NoTypeCalled word part.specification := by
  have hoperations := Findings.foldl_append Findings.operations (fun _ _ => rfl) {} parts
  have htypes := Findings.foldl_append Findings.types (fun _ _ => rfl) {} parts
  refine ⟨fun o ho => h.1 o ?_, fun type ht => h.2 type ?_⟩
  · rw [Findings.specification, hoperations]
    exact List.mem_append_right _ (List.mem_flatMap_of_mem hp ho)
  · rw [Findings.specification, htypes]
    exact List.mem_append_right _ (List.mem_flatMap_of_mem hp ht)

theorem collect_commented (hk : IsBlockComment k) (h : Commented k t t')
    (hprogram : t.kind = .program) (ht : t.IsText) (ht' : t'.IsText) {found : Findings}
    (hfound : collect c {} (topLevel t) = (found, none))
    (hfresh : NoTypeCalled (wording k) found.specification) :
    ∃ found', collect c {} (topLevel t') = (found', none) ∧
      Compared c (interfaces (topLevel t)) (interfaces (topLevel t')) found found' := by
  rw [collect_eq_total, contributions_topLevel] at hfound ⊢
  cases h with
  | @before kd _ _ _ _ _ _ _ _ ho =>
    rw [show kd = .program from hprogram] at ho
    cases ho
  | @inside kd r s s' x x' pre m m' post _ _ hm _ h =>
    have hm' := h.isNamed_eq.trans hm
    have hcomment : m.kind ≠ .comment := h.kind_ne_comment
    have hpost : contributions c (some m') post = contributions c (some m) post :=
      contributions_congr fun t _ => by
        rw [findings_of_ne_comment hcomment, findings_of_ne_comment (h.kind_eq ▸ hcomment)]
    simp only [children, contributions_append, contributions_cons, hm, hm', if_true,
      List.singleton_append, hpost] at hfound ⊢
    obtain ⟨parts, hparts, rfl⟩ := total_eq_none hfound
    obtain ⟨ppre, rest, rfl, hpre, hrest⟩ := List.map_eq_append_iff.1 hparts.symm
    obtain ⟨part, ppost, rfl, hpart, hppost⟩ := List.map_eq_cons_iff.1 hrest
    obtain ⟨part', hpart', hcompared⟩ := findings_commented hk h (ht.child (by simp [children]))
      (ht'.child (by simp [children])) hpart.symm (hfresh.of_mem (by simp))
    refine ⟨(ppre ++ part' :: ppost).foldl Findings.append {}, ?_, ?_⟩
    · rw [hpart', ← hpre, ← hppost, ← List.map_cons, ← List.map_append, total_map_ok]
    · have hds := interfaces_topLevel_cons (t := .node kd r s x (pre ++ m :: post)) rfl hm
        (pre.getLast?.or none)
      have hds' := interfaces_topLevel_cons (t := .node kd r s' x' (pre ++ m' :: post)) rfl hm'
        (pre.getLast?.or none)
      rw [hds, hds']
      exact hcompared.foldl _ _ ppre ppost

/-- What the operations of a source are read from, wherever in the source it stands. -/
def argumentsRead (c : Conventions) (t : SyntaxTree) : List (Option (List SyntaxTree)) :=
  (interfaces (topLevel t.unplaced)).flatMap (argumentsIn c)

/-- What the types of the fields of a source are read from, wherever in the source it stands. -/
def namesRead (c : Conventions) (t : SyntaxTree) : List (Option SyntaxTree) :=
  (interfaces (topLevel t.unplaced)).flatMap (namesIn c)

/-- What comes of reading a source that declared a specification, after it was changed. -/
structure Reread (c : Conventions) (t t' : SyntaxTree) (s : Specification)
    (result : Except Failure Specification) : Prop where
  /-- All declarations can be read, and operations and types can change but nothing else. The types
      of operations and fields are the words of what they are read from now. -/
  found : ∃ found, collect c {} (topLevel t') = (found, none) ∧
    Spelled c (interfaces (topLevel t'.unplaced)) found ∧
    found.specification.version = s.version ∧ found.capabilities = s.capabilities ∧
    (found.operations = s.operations ↔ argumentsRead c t' = argumentsRead c t) ∧
    (found.types = s.types ↔ namesRead c t' = namesRead c t)
  unchanged : result = .ok s ↔
    argumentsRead c t' = argumentsRead c t ∧ namesRead c t' = namesRead c t

theorem collect_unplaced (c : Conventions) (t : SyntaxTree) :
    collect c {} (topLevel t.unplaced) = collect c {} (topLevel t) := by
  rw [collect_eq_total, collect_eq_total, contributions_topLevel, contributions_topLevel,
    children_unplaced, contributions_unplaced]

theorem reread_commented {path : String} {source source' : Text} {s : Specification}
    (hk : IsBlockComment k) (hprogram : t.kind = .program) (ht : t.IsText) (ht' : t'.IsText)
    (h : Commented k t.unplaced t'.unplaced) (hs : (readTree path c source t).result = .ok s)
    (hfresh : NoTypeCalled (wording k) s) :
    Reread c t t' s (readTree path c source' t').result := by
  obtain ⟨hwhole, found, hfound, rfl, hcomplete⟩ := readTree_ok_iff.1 hs
  have hwhole' : ¬ t'.Broken := fun hb =>
    hwhole ((broken_unplaced t).1 (h.broken hk ((broken_unplaced t').2 hb)))
  obtain ⟨found', hfound', hcompared⟩ := collect_commented (c := c) hk h
    ((kind_unplaced t).trans hprogram) (isText_unplaced t ht) (isText_unplaced t' ht')
    ((collect_unplaced c t).trans hfound) hfresh
  have hspelled : Spelled c ([] ++ interfaces (topLevel t'.unplaced)) found' :=
    collect_spelled (fun m hm => isText_topLevel (isText_unplaced t' ht') hm) ⟨rfl, rfl⟩ hfound'
  rw [collect_unplaced] at hfound'
  have hversion : found'.specification.version = found.specification.version := by
    rw [Findings.specification, Findings.specification, hcompared.version]
  refine ⟨⟨found', hfound', hspelled, hversion, hcompared.capabilities, hcompared.operations,
    hcompared.types⟩, ?_⟩
  have hsame : (readTree path c source' t').result = .ok found.specification ↔
      found'.operations = found.operations ∧ found'.types = found.types := by
    rw [readTree_ok_iff, hfound']
    constructor
    · rintro ⟨-, _, heq, hspec, -⟩
      cases heq
      exact ⟨congrArg Specification.operations hspec.symm, congrArg Specification.types hspec.symm⟩
    · rintro ⟨hops, htypes⟩
      refine ⟨hwhole', found', rfl, ?_, hcomplete⟩
      simp only [Findings.specification, hcompared.version, hcompared.capabilities, hops, htypes]
  rw [hsame, hcompared.operations, hcompared.types]
  rfl

/-- **A comment before a type is transparent exactly where it is not looked at.** Reading a source
    again after a block comment was put before one of its types gives the same specification if and
    only if operations are still read from the same arguments and the types of fields from the
    same names. Otherwise operations and fields change, and never anything else. This is for
    specifications without a type that is called like the comment, which would hide it. The same is
    so for all trees of text, whether or not the parser gives them. -/
theorem readTree_commented (path : String) (c : Conventions) {k : SyntaxTree}
    (hk : IsBlockComment k) :
    (∀ bytes bytes' cs cs' s, Utf8.decode bytes = .ok cs → Utf8.decode bytes' = .ok cs' →
      Commented k (parse (Utf8.units bytes)).unplaced (parse (Utf8.units bytes')).unplaced →
      (readSource path c bytes).result = .ok s → NoTypeCalled (wording k) s →
      Reread c (parse (Utf8.units bytes)) (parse (Utf8.units bytes')) s
        (readSource path c bytes').result) ∧
    ∀ source source' t t' s, t.kind = .program → t.IsText → t'.IsText →
      Commented k t.unplaced t'.unplaced → (readTree path c source t).result = .ok s →
      NoTypeCalled (wording k) s → Reread c t t' s (readTree path c source' t').result := by
  constructor
  · intro bytes bytes' cs cs' s hbytes hbytes' h hs hfresh
    exact reread_commented hk rfl (isText_of_sound (parse_sound (noSurrogate_units hbytes)))
      (isText_of_sound (parse_sound (noSurrogate_units hbytes'))) h hs hfresh
  · intro source source' t t' s hprogram ht ht' h hs hfresh
    exact reread_commented hk hprogram ht ht' h hs hfresh

/-- A comment. -/
def remark : SyntaxTree := .leaf .comment 0 (Text.ofString "/* c */")

/-- Properties with these names and the type `A`. -/
def sampleFields (names : List String) : List (String × SyntaxTree) :=
  names.map fun name => (name, .leaf .typeName 0 (Text.ofString "A"))

/-- The tree of an interface with the comment behind the colon of its first property. -/
def remarkedInterface (name first : String) (names : List String) : SyntaxTree :=
  .node .interfaceDeclaration none 0 remark.text [
    .node .typeName (some .name) 0 (Text.ofString name) [],
    .node .interfaceBody (some .body) 0 remark.text
      (.node .property none 0 remark.text [
        .node .name (some .name) 0 (Text.ofString first) [],
        .node .ascribed (some .type) 0 remark.text
          [remark, .leaf .typeName 0 (Text.ofString "A")]] ::
        (sampleFields names).map propertyTree)]

/-- The interface that declares everything and another one. -/
def plainTree : SyntaxTree :=
  sampleTree [interfaceTree "AnyType" (sampleFields requiredOperations),
    interfaceTree "Other" (sampleFields ["x"])]

/-- The comment in the interface that declares everything. -/
def remarkedTree : SyntaxTree :=
  .node .program none 0 remark.text [.leaf .comment 0 (Text.ofString "/** All */"),
    remarkedInterface "AnyType" "Get" ["List", "Create", "Update", "Delete"],
    interfaceTree "Other" (sampleFields ["x"])]

/-- The comment in the other interface. -/
def remarkedAside : SyntaxTree :=
  .node .program none 0 remark.text [.leaf .comment 0 (Text.ofString "/** All */"),
    interfaceTree "AnyType" (sampleFields requiredOperations), remarkedInterface "Other" "x" []]

theorem grown_remark : Grown remark [] remark.text := ⟨[], [], [], rfl, by simp⟩

theorem commented_interfaceTree (name first : String) (names : List String) :
    Commented remark (interfaceTree name (sampleFields (first :: names)))
      (remarkedInterface name first names) := by
  refine @Commented.inside _ _ _ _ _ _ _ [_] _ _ [] rfl grown_remark rfl (by simp [role]) ?_
  refine @Commented.inside _ _ _ _ _ _ _ [] _ _ _ rfl grown_remark rfl
    (by simp [propertyTree, role]) ?_
  refine @Commented.inside _ _ _ _ _ _ _ [_] _ _ [] rfl grown_remark rfl (by simp [role]) ?_
  exact @Commented.before _ _ _ _ _ _ _ [] _ [] rfl grown_remark rfl

theorem commented_plainTree : Commented remark plainTree.unplaced remarkedTree.unplaced :=
  @Commented.inside _ _ _ _ _ _ _ [_] _ _ [_] rfl grown_remark rfl (by decide)
    (commented_interfaceTree "AnyType" "Get" ["List", "Create", "Update", "Delete"])

theorem commented_plainTree_aside : Commented remark plainTree.unplaced remarkedAside.unplaced :=
  @Commented.inside _ _ _ _ _ _ _ [_, _] _ _ [] rfl grown_remark rfl (by decide)
    (commented_interfaceTree "Other" "x" [])

theorem isText_plainTree : plainTree.IsText ∧ remarkedTree.IsText ∧ remarkedAside.IsText := by
  have hnode {kd : Kind} {r : Option Role} {s : Nat} {x : Text} {cs : List SyntaxTree} :
      (SyntaxTree.node kd r s x cs).IsText ↔ x.NoSurrogate ∧ ∀ d ∈ cs, d.IsText := every_iff
  have hnil : Text.NoSurrogate [] := by simp [Text.NoSurrogate]
  have hinterface (name : String) (names : List String) :
      (interfaceTree name (sampleFields names)).IsText := by
    simp [interfaceTree, sampleFields, propertyTree, leaf, hnode, hnil, Text.noSurrogate_ofString]
  have hremarked (name first : String) (names : List String) :
      (remarkedInterface name first names).IsText := by
    simp [remarkedInterface, remark, sampleFields, propertyTree, leaf, text, hnode, hnil,
      Text.noSurrogate_ofString]
  refine ⟨?_, ?_, ?_⟩
  · simp [plainTree, sampleTree, leaf, hnode, hnil, Text.noSurrogate_ofString, hinterface]
  · simp [remarkedTree, remark, leaf, text, hnode, Text.noSurrogate_ofString, hinterface, hremarked]
  · simp [remarkedAside, remark, leaf, text, hnode, Text.noSurrogate_ofString, hinterface,
      hremarked]

theorem readTree_plainTree :
    (readTree "a" sampleConventions [] plainTree).result = .ok sampleSpecification :=
  eq_ok_of_toOption (by decide +kernel)

theorem namesRead_aside :
    namesRead sampleConventions remarkedAside = namesRead sampleConventions plainTree := by
  have haside : interfaces (topLevel remarkedAside.unplaced) =
      [interfaceTree "AnyType" (sampleFields requiredOperations),
        remarkedInterface "Other" "x" []] := rfl
  have hplain : interfaces (topLevel plainTree.unplaced) =
      [interfaceTree "AnyType" (sampleFields requiredOperations),
        interfaceTree "Other" (sampleFields ["x"])] := rfl
  have hname : isTypeName sampleConventions "Other" = false := by cbv
  have hnone {d : SyntaxTree} (hd : nameOf d = "Other") : namesIn sampleConventions d = [] := by
    simp [namesIn, fieldsOf, hd, hname]
  have hother := hnone (d := interfaceTree "Other" (sampleFields ["x"])) (by cbv)
  have hother' := hnone (d := remarkedInterface "Other" "x" []) (by cbv)
  simp [namesRead, haside, hplain, hother, hother']

/-- A comment in an interface without a meaning changes nothing, and one in the interface that
    declares everything takes the place of a type. -/
theorem readTree_commented_sample :
    (readTree "a" sampleConventions [] remarkedAside).result = .ok sampleSpecification ∧
    (readTree "a" sampleConventions [] remarkedTree).result ≠ .ok sampleSpecification := by
  have hremark : IsBlockComment remark := ⟨rfl, rfl, ⟨" c */".toList, by cbv⟩, rfl⟩
  have hfresh : NoTypeCalled (wording remark) sampleSpecification := by
    have hword : wording remark = "/* c */" := by cbv
    simp [NoTypeCalled, hword, sampleSpecification, requiredOperations, untyped]
  obtain ⟨-, htree⟩ := readTree_commented "a" sampleConventions hremark
  obtain ⟨hplain, htext, htext'⟩ := isText_plainTree
  have hreread := htree [] [] plainTree remarkedTree _ rfl hplain htext commented_plainTree
    readTree_plainTree hfresh
  have haside := htree [] [] plainTree remarkedAside _ rfl hplain htext' commented_plainTree_aside
    readTree_plainTree hfresh
  refine ⟨haside.unchanged.2 ⟨by cbv, namesRead_aside⟩, fun h => ?_⟩
  -- the type of the first property was a reference
  have hseen := congrArg (List.map Option.isSome) (hreread.unchanged.1 h).1
  have hread : (argumentsRead sampleConventions plainTree).map Option.isSome =
      [true, true, true, true, true] := by cbv
  have hread' : (argumentsRead sampleConventions remarkedTree).map Option.isSome =
      [false, true, true, true, true] := by cbv
  rw [hread, hread'] at hseen
  cases hseen

end Scaffold.Contract
