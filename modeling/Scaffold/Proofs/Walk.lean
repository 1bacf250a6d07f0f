/-
  The walk over the declarations of a source: `readTree_walk`.

  Reading a tree comes down to the list of what its top-level nodes contribute (`contributions`,
  `total`). A node looks at nothing but itself and the comment right before it, so it contributes
  the same alone, inside an export and next to other statements; and statements that mean nothing
  contribute nothing (`findings_of_irrelevant`).
-/
import Mathlib
import Scaffold.Proofs.Places

namespace Scaffold.Contract

open Source SyntaxTree

variable {t : SyntaxTree} {c : Conventions}

/-! ## Findings one after the other -/

namespace Findings

theorem append_empty (a : Findings) : a.append {} = a := by
  simp [append]

theorem empty_append (a : Findings) : ({} : Findings).append a = a := by
  simp [append]

/-- The lists of findings are joined in order. -/
theorem foldl_append {α : Type} (list : Findings → List α)
    (hlist : ∀ a b, list (a.append b) = list a ++ list b) (found : Findings)
    (parts : List Findings) :
    list (parts.foldl append found) = list found ++ parts.flatMap list := by
  induction parts generalizing found with
  | nil => simp
  | cons part parts ih => simp [ih, hlist]

/-- The last version that was found counts. -/
theorem version_foldl_append (found : Findings) (parts : List Findings) :
    (parts.foldl append found).version = (parts.filterMap version).getLast?.or found.version := by
  induction parts generalizing found with
  | nil => rfl
  | cons part parts ih =>
    rw [List.foldl_cons, ih, List.filterMap_cons]
    cases hv : part.version with
    | none => simp [append, hv]
    | some v =>
      cases hl : (parts.filterMap version).getLast? <;> simp [append, hv, hl, List.getLast?_cons]

end Findings

/-- Contributions one after the other, up to the first that cannot be read. -/
def total (found : Findings) : List (Except ReadFault Findings) → Findings × Option ReadFault
  | [] => (found, none)
  | .ok part :: rest => total (found.append part) rest
  | .error f :: _ => (found, some f)

theorem collect_eq_total (c : Conventions) (found : Findings)
    (ms : List (Option SyntaxTree × SyntaxTree)) :
    collect c found ms = total found (ms.map (findings c)) := by
  induction ms generalizing found with
  | nil => rfl
  | cons m ms ih =>
    rw [collect, List.map_cons]
    cases findings c m with
    | ok part => exact ih (found.append part)
    | error f => rfl

theorem total_eq_none {found all : Findings} {rs : List (Except ReadFault Findings)}
    (h : total found rs = (all, none)) :
    ∃ parts : List Findings, rs = parts.map .ok ∧ all = parts.foldl Findings.append found := by
  induction rs generalizing found with
  | nil =>
    cases h
    exact ⟨[], rfl, rfl⟩
  | cons r rs ih =>
    cases r with
    | error f => cases h
    | ok part =>
      obtain ⟨parts, rfl, rfl⟩ := ih h
      exact ⟨part :: parts, rfl, rfl⟩

theorem total_map_ok (found : Findings) (parts : List Findings) :
    total found (parts.map .ok) = (parts.foldl Findings.append found, none) := by
  induction parts generalizing found with
  | nil => rfl
  | cons part parts ih => exact ih (found.append part)

theorem total_insert (found : Findings) (rs rs' : List (Except ReadFault Findings)) :
    total found (rs ++ .ok {} :: rs') = total found (rs ++ rs') := by
  induction rs generalizing found with
  | nil => rw [List.nil_append, total, Findings.append_empty, List.nil_append]
  | cons r rs ih =>
    cases r with
    | error f => rfl
    | ok part => exact ih (found.append part)

/-! ## What a node looks at -/

theorem describe_of_ne_comment {p : SyntaxTree} (hp : p.kind ≠ .comment) (other : String) :
    describe (some p) other = describe none other := by
  simp [describe, docOf, hp]

/-- An elder sibling that is no comment does not matter. -/
theorem findings_of_ne_comment {p : SyntaxTree} (hp : p.kind ≠ .comment) (t : SyntaxTree) :
    findings c (some p, t) = findings c (none, t) := by
  simp only [findings, interfaceFindings_eq, readTyped, describe_of_ne_comment hp]

/-- Only interfaces are described by their elder sibling. -/
theorem findings_of_ne_interface (ht : (unwrapExport t).kind ≠ .interfaceDeclaration)
    (previous previous' : Option SyntaxTree) :
    findings c (previous, t) = findings c (previous', t) := by
  simp [findings, ht]

theorem findings_comment (ht : t.kind = .comment) (previous : Option SyntaxTree) :
    findings c (previous, t) = .ok {} := by
  simp [findings, unwrapExport, ht]

theorem findings_withRole {d e : SyntaxTree} {r : Role} (hd : d.kind ≠ .exportStatement)
    (he : e.kind = .exportStatement) (hde : e.child? .declaration = some (d.withRole r))
    (previous : Option SyntaxTree) : findings c (previous, e) = findings c (previous, d) := by
  have hue : unwrapExport e = d.withRole r := by simp [unwrapExport, he, hde]
  have hud : unwrapExport d = d := by simp [unwrapExport, hd]
  simp only [findings, hue, hud]
  cases d
  rfl

/-! ## Declarations alone -/

/-- The tree of a node alone, with the comment before it. -/
def alone (m : Option SyntaxTree × SyntaxTree) : SyntaxTree :=
  .node .program none 0 [] ((m.1.filter fun p => p.kind == .comment).toList ++ [m.2])

theorem collect_alone {m : Option SyntaxTree × SyntaxTree} (hm : m.2.isNamed = true)
    {part : Findings} (h : findings c m = .ok part) :
    collect c {} (topLevel (alone m)) = (part, none) := by
  obtain ⟨previous, t⟩ := m
  have hone : findings c (none, t) = .ok part →
      collect c {} (topLevel (.node .program none 0 [] [t])) = (part, none) := by
    intro h
    have htop : topLevel (.node .program none 0 [] [t]) = [(none, t)] := by
      simp only [topLevel, SyntaxTree.children, withPrevious, List.filter_cons, List.filter_nil, hm,
        if_true]
    rw [htop, collect, h]
    simp only [collect, Findings.empty_append]
  cases previous with
  | none => exact hone h
  | some p =>
    by_cases hp : p.kind = .comment
    · have hnamed : p.isNamed = true := by simp [isNamed, hp]
      have htop : topLevel (alone (some p, t)) = [(none, p), (some p, t)] := by
        simp [topLevel, alone, SyntaxTree.children, withPrevious, hp, hnamed, hm, Option.filter]
      rw [htop, collect, findings_comment hp]
      simp only [collect, h, Findings.empty_append]
    · have halone : alone (some p, t) = .node .program none 0 [] [t] := by
        simp [alone, hp, Option.filter]
      rw [halone]
      exact hone (findings_of_ne_comment hp t ▸ h)

theorem forall₂_alone {parts : List Findings}
    (h : (topLevel t).map (findings c) = parts.map .ok) :
    List.Forall₂ (fun m part => collect c {} (topLevel (alone m)) = (part, none))
      (topLevel t) parts := by
  have hnamed : ∀ m ∈ topLevel t, m.2.isNamed = true := fun m hm => (List.mem_filter.1 hm).2
  have hparts : List.Forall₂ (fun m part => findings c m = .ok part) (topLevel t) parts := by
    have heq : List.Forall₂ Eq ((topLevel t).map (findings c)) (parts.map .ok) :=
      h ▸ List.forall₂_refl _
    rwa [List.forall₂_map_left_iff, List.forall₂_map_right_iff] at heq
  exact ((List.forall₂_and_left _ _).2 ⟨hnamed, hparts⟩).imp fun m part hm =>
    collect_alone hm.1 hm.2

/-! ## Contributions of neighbours -/

/-- What the named nodes of a list contribute, when it follows an elder sibling. -/
def contributions (c : Conventions) (previous : Option SyntaxTree) (ts : List SyntaxTree) :
    List (Except ReadFault Findings) :=
  ((withPrevious previous ts).filter fun m => m.2.isNamed).map (findings c)

theorem contributions_topLevel (c : Conventions) (t : SyntaxTree) :
    (topLevel t).map (findings c) = contributions c none t.children := rfl

theorem contributions_cons (previous : Option SyntaxTree) (t : SyntaxTree)
    (ts : List SyntaxTree) :
    contributions c previous (t :: ts) =
      (if t.isNamed then [findings c (previous, t)] else []) ++ contributions c (some t) ts := by
  unfold contributions
  rw [withPrevious, List.filter_cons]
  cases t.isNamed <;> rfl

theorem withPrevious_append (previous : Option SyntaxTree) (ts us : List SyntaxTree) :
    withPrevious previous (ts ++ us) =
      withPrevious previous ts ++ withPrevious (ts.getLast?.or previous) us := by
  induction ts generalizing previous with
  | nil => rfl
  | cons t ts ih =>
    have hlast : ts.getLast?.or (some t) = (t :: ts).getLast?.or previous := by
      rw [List.getLast?_cons]
      cases ts.getLast? <;> rfl
    rw [List.cons_append, withPrevious, withPrevious, ih, hlast, List.cons_append]

theorem contributions_append (previous : Option SyntaxTree) (ts us : List SyntaxTree) :
    contributions c previous (ts ++ us) =
      contributions c previous ts ++ contributions c (ts.getLast?.or previous) us := by
  simp only [contributions, withPrevious_append, List.filter_append, List.map_append]

theorem contributions_unplaced (c : Conventions) (ts : List SyntaxTree) :
    contributions c none (ts.map unplaced) = contributions c none ts := by
  have hprev := withPrevious_unplaced none ts
  have hnamed (m : Option SyntaxTree × SyntaxTree) :
      (unplacedPair m).2.isNamed = m.2.isNamed := isNamed_unplaced m.2
  simp only [Option.map_none] at hprev
  simp only [contributions, hprev, List.filter_map, List.map_map, Function.comp_def, hnamed,
    findings_unplaced]

/-- The elder sibling of a list matters to its first node only. -/
theorem contributions_congr {previous previous' : Option SyntaxTree} {ts : List SyntaxTree}
    (h : ∀ t ∈ ts.head?, findings c (previous, t) = findings c (previous', t)) :
    contributions c previous ts = contributions c previous' ts := by
  cases ts with
  | nil => rfl
  | cons t ts => rw [contributions_cons, contributions_cons, h t rfl]

theorem readTree_congr {path : String} {source source' : Text} {t t' : SyntaxTree}
    (ht : ¬ t.Broken) (ht' : ¬ t'.Broken)
    (h : total {} (contributions c none t'.children) =
      total {} (contributions c none t.children)) :
    readTree path c source' t' = readTree path c source t := by
  unfold readTree
  rw [(firstError_eq_none t).2 ht, (firstError_eq_none t').2 ht']
  simp only [collect_eq_total, contributions_topLevel, h]

/-! ## Statements without a meaning -/

/-- The names of interfaces that have a meaning. -/
def isRecognised (c : Conventions) (name : String) : Bool :=
  name == c.operationsInterface || isTypeName c name || name == c.capabilitiesInterface

/-- A top-level node whose names can be read and declare neither the version nor an interface with
    a meaning. -/
def Irrelevant (c : Conventions) (t : SyntaxTree) : Prop :=
  ((unwrapExport t).kind = .variableDeclaration →
    ∀ v ∈ (unwrapExport t).namedChildren, v.kind = .declarator →
      ∃ name, childText .name v = .ok name ∧ name ≠ c.versionConstant) ∧
  ((unwrapExport t).kind = .interfaceDeclaration →
    ∃ name, childText .name (unwrapExport t) = .ok name ∧ isRecognised c name = false)

theorem findVersion_eq_none {ts : List SyntaxTree}
    (h : ∀ t ∈ ts, t.kind = .declarator →
      ∃ name, childText .name t = .ok name ∧ name ≠ c.versionConstant) :
    findVersion c ts = .ok none := by
  induction ts with
  | nil => rfl
  | cons t ts ih =>
    rw [findVersion, ih fun u hu => h u (List.mem_cons_of_mem t hu)]
    by_cases hk : t.kind = .declarator
    · obtain ⟨name, hname, hne⟩ := h t (List.mem_cons_self ..) hk
      simp [hk, hname, hne, bind, Except.bind]
    · simp [hk]

/-- Statements without a meaning contribute nothing. -/
theorem findings_of_irrelevant (h : Irrelevant c t) (previous : Option SyntaxTree) :
    findings c (previous, t) = .ok {} := by
  unfold findings
  by_cases hv : (unwrapExport t).kind = .variableDeclaration
  · simp [hv, findVersion_eq_none (h.1 hv), Except.map]
  by_cases hi : (unwrapExport t).kind = .interfaceDeclaration
  · obtain ⟨name, hname, hr⟩ := h.2 hi
    simp only [isRecognised, isTypeName, Bool.or_eq_false_iff] at hr
    obtain ⟨⟨hops, htype⟩, hcaps⟩ := hr
    simp [hi, interfaceFindings_eq, hname, readOperations, readTyped, readCapabilities, hops,
      htype, hcaps, Except.bind]
  · simp [hv, hi]

/-! ## Edits of a source -/

/-- A place between two lists of nodes that parts a comment from the interface it describes. -/
def Separates (before after : List SyntaxTree) : Prop :=
  (∃ p ∈ before.getLast?, p.kind = .comment) ∧
    ∃ d ∈ after.head?, (unwrapExport d).kind = .interfaceDeclaration

/-- An export of a declaration contributes what the declaration does. -/
theorem contributions_export {before after : List SyntaxTree} {d e : SyntaxTree} {r : Role}
    (hd : d.kind = .interfaceDeclaration ∨ d.kind = .variableDeclaration)
    (he : e.kind = .exportStatement) (hde : e.child? .declaration = some (d.withRole r)) :
    contributions c none (before ++ e :: after) = contributions c none (before ++ d :: after) := by
  have hdk : d.kind ≠ .exportStatement ∧ d.kind ≠ .comment ∧ d.isNamed = true := by
    rcases hd with hd | hd <;> simp [isNamed, hd]
  have hek : e.kind ≠ .comment ∧ e.isNamed = true := by simp [isNamed, he]
  have hnext : contributions c (some e) after = contributions c (some d) after :=
    contributions_congr fun t _ => by
      rw [findings_of_ne_comment hek.1, findings_of_ne_comment hdk.2.1]
  rw [contributions_append, contributions_append, contributions_cons, contributions_cons, hnext,
    findings_withRole hdk.1 he hde, hek.2, hdk.2.2]

/-- A statement without a meaning changes nothing, unless it parts a comment from an interface. -/
theorem total_contributions_insert {before after : List SyntaxTree} {x : SyntaxTree}
    (hx : x.kind ≠ .comment) (hi : Irrelevant c x) (hs : ¬ Separates before after) :
    total {} (contributions c none (before ++ x :: after)) =
      total {} (contributions c none (before ++ after)) := by
  have hnext : contributions c (some x) after =
      contributions c (before.getLast?.or none) after := by
    refine contributions_congr fun d hd => ?_
    by_cases hk : (unwrapExport d).kind = .interfaceDeclaration
    · rw [findings_of_ne_comment hx, Option.or_none]
      cases hl : before.getLast? with
      | none => rfl
      | some p =>
        have hp : p.kind ≠ .comment := fun hp => hs ⟨⟨p, hl, hp⟩, d, hd, hk⟩
        rw [findings_of_ne_comment hp]
    · exact findings_of_ne_interface hk _ _
  rw [contributions_append, contributions_append, contributions_cons, hnext,
    findings_of_irrelevant hi]
  split
  · exact total_insert ..
  · rfl

theorem readTree_ok_iff {path : String} {source : Text} {s : Specification} :
    (readTree path c source t).result = .ok s ↔ ¬ t.Broken ∧
      ∃ found, collect c {} (topLevel t) = (found, none) ∧ s = found.specification ∧
        missing? s = none := by
  unfold readTree
  rw [← firstError_eq_none]
  cases t.firstError with
  | some e => simp
  | none =>
    cases hcollect : collect c {} (topLevel t) with
    | mk found fault =>
      cases fault with
      | some f => simp
      | none =>
        cases hm : missing? found.specification with
        | some m =>
          simp only [hm, reduceCtorEq, Prod.mk.injEq, and_true, true_and, false_iff]
          rintro ⟨_, rfl, rfl, hnone⟩
          rw [hm] at hnone
          cases hnone
        | none =>
          simp only [hm, Except.ok.injEq, Prod.mk.injEq, and_true, true_and]
          constructor
          · rintro rfl
            exact ⟨found, rfl, rfl, hm⟩
          · rintro ⟨_, rfl, rfl, -⟩
            rfl

theorem readTree_ok {path : String} {source : Text} {s : Specification}
    (h : (readTree path c source t).result = .ok s) :
    ∃ found, collect c {} (topLevel t) = (found, none) ∧ s = found.specification := by
  obtain ⟨-, found, hfound, hs, -⟩ := readTree_ok_iff.1 h
  exact ⟨found, hfound, hs⟩

/-- **The walk over declarations keeps their order and nothing else.** A specification consists of
    what the declarations contribute alone, one after the other, with the version of the last one
    that has any. So an export around a declaration changes nothing, and neither does a statement
    without a meaning that does not part a comment from the interface it describes; the trees
    before and after such an edit may have their nodes at other places. -/
theorem readTree_walk (path : String) (c : Conventions) :
    (∀ source t s, (readTree path c source t).result = .ok s →
      ∃ parts : List Findings,
        List.Forall₂ (fun m part => collect c {} (topLevel (alone m)) = (part, none))
          (topLevel t) parts ∧
        s.operations = parts.flatMap Findings.operations ∧
        s.types = parts.flatMap Findings.types ∧
        s.capabilities = parts.flatMap Findings.capabilities ∧
        s.version = (parts.filterMap Findings.version).getLast?.getD
          (Text.ofString defaultVersion)) ∧
    (∀ source source' t t' before after d e, ¬ t.Broken → ¬ t'.Broken →
      t.children.map unplaced = before ++ d :: after →
      t'.children.map unplaced = before ++ e :: after →
      (d.kind = .interfaceDeclaration ∨ d.kind = .variableDeclaration) →
      e.kind = .exportStatement → e.child? .declaration = some (d.withRole .declaration) →
      readTree path c source' t' = readTree path c source t) ∧
    (∀ source source' t t' before after x, ¬ t.Broken → ¬ t'.Broken →
      t.children.map unplaced = before ++ after →
      t'.children.map unplaced = before ++ x :: after →
      x.kind ≠ .comment → Irrelevant c x → ¬ Separates before after →
      readTree path c source' t' = readTree path c source t) := by
  refine ⟨fun source t s h => ?_, fun source source' t t' before after d e ht ht' hcs hcs' hd he
    hde => ?_, fun source source' t t' before after x ht ht' hcs hcs' hx hi hs => ?_⟩
  · obtain ⟨found, hfound, rfl⟩ := readTree_ok h
    rw [collect_eq_total] at hfound
    obtain ⟨parts, hparts, rfl⟩ := total_eq_none hfound
    refine ⟨parts, forall₂_alone hparts,
      Findings.foldl_append Findings.operations (fun _ _ => rfl) {} parts,
      Findings.foldl_append Findings.types (fun _ _ => rfl) {} parts,
      Findings.foldl_append Findings.capabilities (fun _ _ => rfl) {} parts, ?_⟩
    rw [Findings.specification, Findings.version_foldl_append, Option.or_none]
  · refine readTree_congr ht ht' ?_
    rw [← contributions_unplaced c t'.children, hcs', contributions_export hd he hde, ← hcs,
      contributions_unplaced]
  · refine readTree_congr ht ht' ?_
    rw [← contributions_unplaced c t'.children, hcs', total_contributions_insert hx hi hs,
      ← hcs, contributions_unplaced]

/-- Conventions under which one interface declares everything. -/
def sampleConventions : Conventions where
  operationsInterface := "AnyType"
  capabilitiesInterface := "AnyType"

/-- The required operations, as properties of one interface. -/
def sampleInterface : SyntaxTree :=
  interfaceTree "AnyType"
    (requiredOperations.map fun name => (name, .leaf .typeName 0 (Text.ofString "A")))

/-- The tree of a comment and what comes after it. -/
def sampleTree (ts : List SyntaxTree) : SyntaxTree :=
  .node .program none 0 [] (.leaf .comment 0 (Text.ofString "/** All */") :: ts)

/-- What the comment and the interface declare. -/
def sampleSpecification : Specification where
  operations := requiredOperations.map fun name =>
    { name, description := "MCP " ++ name ++ " operation" }
  types := [{
    name := "AnyType"
    description := "All"
    fields := requiredOperations.map fun name =>
      { name, type := "A", required := true, description := name ++ " field" } }]
  capabilities := requiredOperations.map fun name =>
    { name, description := "MCP " ++ name ++ " capability" }

/-- A comment and an interface: what they declare, with the interface exported, and with another
    interface behind it. -/
theorem readTree_walk_sample :
    let read ts := readTree "a" sampleConventions [] (sampleTree ts)
    (∃ parts : List Findings,
      List.Forall₂
        (fun m part => collect sampleConventions {} (topLevel (alone m)) = (part, none))
        (topLevel (sampleTree [sampleInterface])) parts ∧
      sampleSpecification.operations = parts.flatMap Findings.operations ∧
      sampleSpecification.types = parts.flatMap Findings.types ∧
      sampleSpecification.capabilities = parts.flatMap Findings.capabilities) ∧
    read [.node .exportStatement none 11 [] [sampleInterface.withRole .declaration]] =
      read [sampleInterface] ∧
    read [sampleInterface, interfaceTree "Other" []] = read [sampleInterface] := by
  obtain ⟨hparts, hexport, hinsert⟩ := readTree_walk "a" sampleConventions
  have hwhole : ¬ (sampleTree [sampleInterface]).Broken := not_broken_of_hasError (by cbv)
  refine ⟨?_, ?_, ?_⟩
  · obtain ⟨parts, hf, ho, ht, hc, -⟩ :=
      hparts [] (sampleTree [sampleInterface]) sampleSpecification
        (eq_ok_of_toOption (by decide +kernel))
    exact ⟨parts, hf, ho, ht, hc⟩
  · exact hexport [] [] _ _ [.leaf .comment 0 (Text.ofString "/** All */")] [] sampleInterface
      (.node .exportStatement none 0 [] [sampleInterface.withRole .declaration]) hwhole
      (not_broken_of_hasError (by cbv)) (by cbv) (by cbv) (Or.inl rfl) rfl (by cbv)
  · refine hinsert [] [] _ _ [.leaf .comment 0 (Text.ofString "/** All */"), sampleInterface] []
      (interfaceTree "Other" []) hwhole (not_broken_of_hasError (by cbv)) (by cbv) (by cbv)
      (by decide) ?_ ?_
    · exact ⟨fun h => absurd h (by decide), fun _ => ⟨"Other", by cbv, by cbv⟩⟩
    · rintro ⟨-, d, hd, -⟩
      cases hd

end Scaffold.Contract
