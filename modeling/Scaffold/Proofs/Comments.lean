/-
  Comments inside types.

  A comment is a child like any other, and the parts of a type are told by their place, so a comment
  can be taken for a part. `Commented k t t'` says that the comment `k` was put right before a type
  somewhere in `t`, which gives `t'`. Whatever is looked for in `t'` is then the comment, or what
  is found in `t`, or that with the comment inside (`Found`): this is so of the type in parentheses
  (`unwrap_found`), of the part that names a type (`namePart_found`) and of the node at the end of
  these parts (`nameNode_found`), while the arguments of a reference have the comment among them
  (`typeArgumentsOf_among`). A type that is found has the same name exactly if its name is read from
  the same node (`Found.ownName_eq_iff`).
-/
import Scaffold.Proofs.Spelling

namespace Scaffold.Contract

open Source SyntaxTree

variable {k t t' u u' : SyntaxTree}

/-! ## A comment before a type -/

/-- A block comment. -/
structure IsBlockComment (k : SyntaxTree) : Prop where
  kind : k.kind = .comment
  role : k.role = none
  text : ∃ body, k.text = Text.ofString (String.ofList ('/' :: '*' :: body))
  children : k.children = []

/-- A text with the text of a comment put into it, and perhaps more behind that. -/
def Grown (k : SyntaxTree) (x x' : Text) : Prop :=
  ∃ a gap b, x = a ++ b ∧ x' = a ++ (k.text ++ gap) ++ b

/-- The nodes that have types behind a colon, `readonly`, a parenthesis, a bracket or a comma. -/
def opensType (kd : Kind) : Bool := kd == .ascribed || isWrapper kd || kd == .typeArguments

/-- The nodes that can have types inside. -/
def holdsTypes (kd : Kind) : Bool := kd != .literalType && kd != .string && kd != .comment

/-- The comment `k` was put right before a type somewhere in a tree. It is in the texts of all nodes
    around it. -/
inductive Commented (k : SyntaxTree) : SyntaxTree → SyntaxTree → Prop
  | before {kd r s s' x x' pre c post} : opensType kd = true → Grown k x x' → c.isNamed = true →
      Commented k (.node kd r s x (pre ++ c :: post)) (.node kd r s' x' (pre ++ k :: c :: post))
  | inside {kd r s s' x x' pre c c' post} : holdsTypes kd = true → Grown k x x' →
      c.isNamed = true → c.role ≠ some .name → Commented k c c' →
      Commented k (.node kd r s x (pre ++ c :: post)) (.node kd r s' x' (pre ++ c' :: post))

/-- What is found after the comment was put in: the comment, or the same as before, or that with
    the comment inside. -/
inductive Found (k : SyntaxTree) : SyntaxTree → SyntaxTree → Prop
  | comment (t : SyntaxTree) : Found k t k
  | same (t : SyntaxTree) : Found k t t
  | inside {t t' : SyntaxTree} : Commented k t t' → Found k t t'

/-- The comment was put among trees: before one of them, or inside one of them. -/
inductive Among (k : SyntaxTree) : List SyntaxTree → List SyntaxTree → Prop
  | before (pre : List SyntaxTree) (c : SyntaxTree) (post : List SyntaxTree) :
      Among k (pre ++ c :: post) (pre ++ k :: c :: post)
  | inside (pre : List SyntaxTree) {c c' : SyntaxTree} (post : List SyntaxTree) :
      Commented k c c' → Among k (pre ++ c :: post) (pre ++ c' :: post)

namespace IsBlockComment

theorem isNamed (hk : IsBlockComment k) : k.isNamed = true := by
  simp [SyntaxTree.isNamed, hk.kind]

theorem wording_eq (hk : IsBlockComment k) :
    ∃ body, wording k = String.ofList ('/' :: '*' :: body) := by
  obtain ⟨body, hbody⟩ := hk.text
  exact ⟨body, by rw [wording, hbody, Text.toString?_ofString, Option.getD_some]⟩

theorem unwrap_eq (hk : IsBlockComment k) : unwrap k = k := by
  rw [Contract.unwrap_eq, hk.kind]
  rfl

theorem namePart_eq (hk : IsBlockComment k) : namePart k = none := by
  simp [namePart, hk.kind, isNamedByPart, isWrapper]

theorem ownName_eq (hk : IsBlockComment k) : ownName k = wording k := by
  simp [ownName, hk.kind]

end IsBlockComment

theorem Among.head? {l l' : List SyntaxTree} (h : Among k l l') :
    ∃ u u', l.head? = some u ∧ l'.head? = some u' ∧ Found k u u' := by
  cases h with
  | before pre c post =>
    cases pre with
    | nil => exact ⟨c, k, rfl, rfl, .comment c⟩
    | cons p pre => exact ⟨p, p, rfl, rfl, .same p⟩
  | inside pre post h =>
    cases pre with
    | nil => exact ⟨_, _, rfl, rfl, .inside h⟩
    | cons p pre => exact ⟨p, p, rfl, rfl, .same p⟩

namespace Commented

theorem kind_eq (h : Commented k t t') : t'.kind = t.kind := by
  cases h <;> rfl

theorem role_eq (h : Commented k t t') : t'.role = t.role := by
  cases h <;> rfl

theorem holdsTypes_kind (h : Commented k t t') : holdsTypes t.kind = true := by
  cases h with
  | @before kd _ _ _ _ _ _ _ _ hk => cases kd <;> first | rfl | cases hk
  | inside hk => exact hk

theorem kind_ne_comment (h : Commented k t t') : t.kind ≠ .comment := by
  intro hcomment
  have hholds := h.holdsTypes_kind
  rw [hcomment] at hholds
  cases hholds

theorem grown (h : Commented k t t') : Grown k t.text t'.text := by
  cases h with
  | before _ hx _ => exact hx
  | inside _ hx _ _ _ => exact hx

theorem isNamed_eq (h : Commented k t t') : t'.isNamed = t.isNamed := by
  rw [SyntaxTree.isNamed, h.kind_eq, SyntaxTree.isNamed]

theorem namedChildren (hk : IsBlockComment k) (h : Commented k t t') :
    Among k t.namedChildren t'.namedChildren := by
  cases h with
  | @before kd r s s' x x' pre c post _ _ hc =>
    simp only [SyntaxTree.namedChildren, children, List.filter_append, List.filter_cons, hc,
      hk.isNamed, if_true]
    exact .before _ c _
  | @inside kd r s s' x x' pre c c' post _ _ hc _ h =>
    have hc' := h.isNamed_eq.trans hc
    simp only [SyntaxTree.namedChildren, children, List.filter_append, List.filter_cons, hc, hc',
      if_true]
    exact .inside _ _ h

/-- A child in a role is the same, or it has the comment inside and is not a name. -/
theorem child? (hk : IsBlockComment k) (h : Commented k t t') (r : Role) :
    t'.child? r = t.child? r ∨
      r ≠ .name ∧ ∃ c c', t.child? r = some c ∧ t'.child? r = some c' ∧ Commented k c c' := by
  have hcomment : (k.role == some r) = false := by rw [hk.role]; rfl
  cases h with
  | @before kd _ s s' x x' pre c post _ _ hc =>
    refine Or.inl ?_
    simp [SyntaxTree.child?, children, List.find?_append, List.find?_cons, hcomment]
  | @inside kd _ s s' x x' pre c c' post _ _ hc hname h =>
    simp only [SyntaxTree.child?, children, List.find?_append, List.find?_cons, h.role_eq]
    cases hpre : pre.find? fun c => c.role == some r with
    | some p => exact Or.inl rfl
    | none =>
      cases hr : c.role == some r with
      | false => exact Or.inl rfl
      | true =>
        refine Or.inr ⟨?_, c, c', rfl, rfl, h⟩
        rintro rfl
        exact hname (beq_iff_eq.1 hr)

theorem child?_name (hk : IsBlockComment k) (h : Commented k t t') :
    t'.child? .name = t.child? .name :=
  (h.child? hk .name).resolve_right fun hr => hr.1 rfl

/-- A comment breaks nothing. -/
theorem broken (hk : IsBlockComment k) (h : Commented k t t') (hb : t'.Broken) : t.Broken := by
  have hwhole : ¬ k.Broken := by
    rw [broken_iff, hk.children]
    simp [isError, hk.kind]
  induction h with
  | before _ _ _ =>
    rw [broken_iff] at hb ⊢
    refine hb.imp id ?_
    rintro ⟨d, hd, hdb⟩
    simp only [SyntaxTree.children, List.mem_append, List.mem_cons] at hd ⊢
    rcases hd with hd | rfl | hd
    · exact ⟨d, Or.inl hd, hdb⟩
    · exact absurd hdb hwhole
    · exact ⟨d, Or.inr hd, hdb⟩
  | @inside _ _ _ _ _ _ _ c _ _ _ _ _ _ _ ih =>
    rw [broken_iff] at hb ⊢
    refine hb.imp id ?_
    rintro ⟨d, hd, hdb⟩
    simp only [SyntaxTree.children, List.mem_append, List.mem_cons] at hd ⊢
    rcases hd with hd | rfl | hd
    · exact ⟨d, Or.inl hd, hdb⟩
    · exact ⟨c, Or.inr (Or.inl rfl), ih hdb⟩
    · exact ⟨d, Or.inr (Or.inr hd), hdb⟩

/-! ### Texts -/

theorem slash_mem (hk : IsBlockComment k) (h : Commented k t t') (ht' : t'.IsText) :
    '/' ∈ (wording t').toList := by
  obtain ⟨body, hbody⟩ := hk.text
  obtain ⟨a, gap, b, -, hx⟩ := h.grown
  obtain ⟨s, hs⟩ := Text.exists_ofString ht'.self
  have hw : wording t' = s := by rw [wording, hs, Text.toString?_ofString, Option.getD_some]
  have hmem : CodePoint.scalar '/' ∈ t'.text := by
    rw [hx, hbody]
    simp [Text.ofString]
  rw [hs, Text.ofString, List.mem_map] at hmem
  obtain ⟨c, hc, heq⟩ := hmem
  cases heq
  rw [hw]
  exact hc

/-- A comment shows in the text of a node. -/
theorem wording_ne (hk : IsBlockComment k) (h : Commented k t t') (ht : t.IsText)
    (ht' : t'.IsText) : wording t' ≠ wording t := by
  intro heq
  obtain ⟨body, hbody⟩ := hk.text
  obtain ⟨a, gap, b, hx, hx'⟩ := h.grown
  obtain ⟨s, hs⟩ := Text.exists_ofString ht.self
  obtain ⟨s', hs'⟩ := Text.exists_ofString ht'.self
  obtain rfl : s' = s := by
    rwa [wording, wording, hs, hs', Text.toString?_ofString, Text.toString?_ofString] at heq
  have hlength := congrArg List.length (hx'.symm.trans (hs'.trans (hs.symm.trans hx)))
  rw [hbody] at hlength
  simp [Text.ofString] at hlength
  omega

end Commented

/-! ## What is found -/

/-- What leads from the comment to itself leads from what is found to what is found. -/
theorem Found.map {f : SyntaxTree → SyntaxTree} (hf : f k = k) (h : Found k t t')
    (hin : Commented k t t' → Found k (f t) (f t')) : Found k (f t) (f t') := by
  cases h with
  | comment => rw [hf]; exact .comment _
  | same => exact .same _
  | inside h => exact hin h

theorem unwrap_found (hk : IsBlockComment k) (h : Commented k t t') :
    Found k (unwrap t) (unwrap t') := by
  induction t using SyntaxTree.induct generalizing t' with
  | h t ih =>
    rw [unwrap_eq t, unwrap_eq t', h.kind_eq]
    split
    · obtain ⟨u, u', hu, hu', hfound⟩ := (h.namedChildren hk).head?
      simp only [hu, hu', Option.map_some, Option.getD_some]
      exact hfound.map hk.unwrap_eq (ih u (mem_children_of_namedChildren (List.mem_of_head? hu)))
    · exact .inside h

theorem Found.unwrap (hk : IsBlockComment k) (h : Found k t t') :
    Found k (unwrap t) (unwrap t') :=
  h.map hk.unwrap_eq (unwrap_found hk)

theorem typeArgumentsOf_among (hk : IsBlockComment k) (h : Commented k t t') :
    typeArgumentsOf t' = typeArgumentsOf t ∨ Among k (typeArgumentsOf t) (typeArgumentsOf t') := by
  unfold typeArgumentsOf
  rw [h.kind_eq]
  split
  · rcases h.child? hk .typeArguments with hsame | ⟨-, c, c', hc, hc', hin⟩
    · rw [hsame]; exact Or.inl rfl
    · rw [hc, hc']; exact Or.inr (hin.namedChildren hk)
  · exact Or.inl rfl

theorem namePart_found (hk : IsBlockComment k) (h : Commented k t t') :
    (namePart t = none ∧ namePart t' = none) ∨
      ∃ u u', namePart t = some u ∧ namePart t' = some u' ∧ Found k u u' := by
  unfold namePart
  rw [h.kind_eq, h.child?_name hk]
  split
  · exact Or.inr (h.namedChildren hk).head?
  split
  · rcases typeArgumentsOf_among hk h with hsame | hamong
    · rw [hsame]
      cases (typeArgumentsOf t).head? with
      | none => exact Or.inl ⟨rfl, rfl⟩
      | some u => exact Or.inr ⟨u, u, rfl, rfl, .same u⟩
    · exact Or.inr hamong.head?
  · exact Or.inl ⟨rfl, rfl⟩

/-- **Where the name of a type is looked for, there is the comment, or the same node as before, or
    that node with the comment inside.** -/
theorem nameNode_found (hk : IsBlockComment k) (h : Commented k t t') :
    Found k (nameNode t) (nameNode t') := by
  induction hsize : t.size using Nat.strong_induction_on generalizing t t' with
  | _ n ih =>
    subst hsize
    rcases namePart_found hk h with ⟨hp, hp'⟩ | ⟨u, u', hp, hp', hfound⟩
    · rw [nameNode_of_none hp, nameNode_of_none hp']
      exact .inside h
    · rw [nameNode_of_some hp, nameNode_of_some hp']
      exact hfound.map (nameNode_of_none hk.namePart_eq) fun hin =>
        ih u.size (size_lt_of_namePart hp) hin rfl

theorem Found.nameNode (hk : IsBlockComment k) (h : Found k t t') :
    Found k (nameNode t) (nameNode t') :=
  h.map (nameNode_of_none hk.namePart_eq) (nameNode_found hk)

/-! ## Types with a comment -/

theorem ownName_of_naming (hk : IsBlockComment k) (h : naming t = some k) :
    ownName t = wording k := by
  unfold naming at h
  split at h
  · next hg => simp [ownName, beq_iff_eq.1 hg, nameOf, h]
  · cases h
    exact hk.ownName_eq

/-- The name of what is found is the same exactly if it is read from the same node. -/
theorem Found.ownName_eq_iff (hk : IsBlockComment k) (h : Found k t t') (ht : t.IsText)
    (ht' : t'.IsText) (hfresh : ownName t ≠ wording k) :
    ownName t' = ownName t ↔ naming t' = naming t := by
  cases h with
  | comment =>
    have hnaming : naming k = some k := by simp [naming, hk.kind]
    rw [hk.ownName_eq, hnaming]
    exact iff_of_false hfresh.symm fun heq => hfresh (ownName_of_naming hk heq.symm)
  | same => simp
  | inside h =>
    have hl : t.kind ≠ .literalType := by
      intro hl
      have hholds := h.holdsTypes_kind
      rw [hl] at hholds
      cases hholds
    rw [ownName, ownName, nameOf, nameOf, naming, naming, h.kind_eq, h.child?_name hk]
    by_cases hg : t.kind = .genericType
    · simp [hg]
    · have hword := h.wording_ne hk ht ht'
      simp only [beq_iff_eq, hg, hl, if_false, Option.some.injEq]
      exact iff_of_false hword fun heq => hword (by rw [heq])

theorem not_nameless_comment (hk : IsBlockComment k) : ¬ Nameless k := by
  obtain ⟨body, hbody⟩ := hk.wording_eq
  rintro ⟨-, h | h | h | h⟩
  · rw [hk.kind] at h; cases h
  · rw [hk.kind] at h; cases h
  · rw [hk.kind] at h; cases h
  · have hmem : '/' ∈ (wording k).toList := by simp [hbody]
    have hwords : ∀ w ∈ emptyWords, '/' ∉ w.toList := by decide
    exact hwords _ h hmem

theorem Commented.nameless (hk : IsBlockComment k) (h : Commented k t t') (ht' : t'.IsText)
    (hn : Nameless t') : Nameless t := by
  obtain ⟨hunion, hkind⟩ := hn
  rw [h.kind_eq] at hunion hkind
  refine ⟨hunion, ?_⟩
  rcases hkind with hkind | hkind | hkind | hword
  · exact Or.inl hkind
  · exact Or.inr (Or.inl hkind)
  · exact Or.inr (Or.inr (Or.inl hkind))
  · have hwords : ∀ w ∈ emptyWords, '/' ∉ w.toList := by decide
    exact absurd (h.slash_mem hk ht') (hwords _ hword)

theorem IsBlockComment.no_fault (hk : IsBlockComment k) (f : TypeFault) : ¬ FaultOf k f := by
  intro hf
  cases hf with
  | noPart hkind => rw [hk.kind] at hkind; simp at hkind
  | nameless hkind => rw [hk.kind] at hkind; cases hkind
  | inPart hp => rw [hk.namePart_eq] at hp; cases hp

/-- A comment brings no fault. -/
theorem Commented.no_fault (hk : IsBlockComment k) (h : Commented k t t') (ht' : t'.IsText)
    (hok : ∀ f, ¬ FaultOf t f) (f : TypeFault) : ¬ FaultOf t' f := by
  intro hf
  induction hf generalizing t with
  | noPart _ hcs =>
    obtain ⟨u, u', -, hu', -⟩ := (h.namedChildren hk).head?
    rw [hcs] at hu'
    cases hu'
  | @nameless t' first' hkind hc hn =>
    obtain ⟨u, u', hu, hu', hfound⟩ := (h.namedChildren hk).head?
    rw [hc] at hu'
    cases hu'
    rw [h.kind_eq] at hkind
    have hfirst : Nameless (unwrap u) := by
      have htext := isText_unwrap (isText_of_namedChildren ht' (List.mem_of_head? hc))
      have hun := hfound.unwrap hk
      generalize unwrap u = v at hun
      generalize unwrap first' = v' at hun hn htext
      cases hun with
      | comment => exact absurd hn (not_nameless_comment hk)
      | same => exact hn
      | inside hin => exact hin.nameless hk htext hn
    exact hok _ (.nameless hkind hu hfirst)
  | @inPart t' u' g hp' hn hg ih =>
    rcases namePart_found hk h with ⟨-, hnone⟩ | ⟨u, v', hp, hv', hfound⟩
    · rw [hp'] at hnone; cases hnone
    · rw [hp'] at hv'
      cases hv'
      have hpart : t.kind = .unionType → ¬ Nameless (unwrap u) := fun hunion hless =>
        hok _ (.nameless hunion (namePart_of_union hunion ▸ hp) hless)
      cases hfound with
      | comment => exact hk.no_fault _ hg
      | same => exact hok _ (.inPart hp hpart hg)
      | inside hin =>
        exact ih hin (isText_of_namePart ht' hp') fun f hf => hok f (.inPart hp hpart hf)

theorem Commented.isArray (hk : IsBlockComment k) (h : Commented k t t') (ht : t.IsText)
    (ht' : t'.IsText) : isArray t' = isArray t := by
  unfold Contract.isArray
  rw [h.kind_eq]
  split
  · rfl
  by_cases hg : t.kind = .genericType
  · rw [isArrayReference_eq ht hg, isArrayReference_eq ht' (h.kind_eq.trans hg), h.child?_name hk]
    rcases typeArgumentsOf_among hk h with hsame | hamong
    · rw [hsame]
    · obtain ⟨u, u', hu, hu', -⟩ := hamong.head?
      have hargs : (typeArgumentsOf t).isEmpty = false := by
        cases hl : typeArgumentsOf t <;> simp_all
      have hargs' : (typeArgumentsOf t').isEmpty = false := by
        cases hl : typeArgumentsOf t' <;> simp_all
      rw [hargs, hargs']
  · have hg' : t'.kind ≠ .genericType := by rwa [h.kind_eq]
    simp [isArrayReference, hg, hg']

/-- Whether a type is an array does not depend on a comment that is not taken for its name. -/
theorem isRepeated_of_found (hk : IsBlockComment k) (h : Found k t t') (ht : t.IsText)
    (ht' : t'.IsText) (hne : nameNode t' ≠ k) : isRepeated t' = isRepeated t := by
  have hunwrap : unwrap t' ≠ k := by
    intro heq
    rw [← nameNode_unwrap, heq, nameNode_of_none hk.namePart_eq] at hne
    exact hne rfl
  have hfound := h.unwrap hk
  have htext := isText_unwrap ht
  have htext' := isText_unwrap ht'
  unfold isRepeated
  generalize unwrap t = u at hfound htext
  generalize unwrap t' = u' at hfound htext' hunwrap
  cases hfound with
  | comment => exact absurd rfl hunwrap
  | same => rfl
  | inside hin => exact hin.isArray hk htext htext'

end Scaffold.Contract
