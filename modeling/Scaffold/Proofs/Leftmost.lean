/-
  The name of a type is that of its leftmost alternative: `resolve_leftmost`.

  * `Leads t u`: a type leads to a part of it. Parentheses and `readonly` lead to what they are
    around, an array to its items, `Array` to its first argument, and a union to its first
    alternative. Parts are nodes with a name: the keyword `const`, which can stand for a type, has
    none and is looked over like punctuation.
  * `Core t u`: `u` is what is left of `t` without parentheses and `readonly`.
  * `Rejects t b`: a union leads to an alternative that names nothing, `b` out of its parentheses.
  * `Descends t u`: going on in this way leads from `t` to `u`, past no union that rejects its
    alternative.

  A type has the name of the node that it descends to (`resolve_of_descends`), and every descent
  comes to an end (`exists_descends`): at a union that rejects its alternative, or at a type that
  leads nowhere.
-/
import Mathlib
import Scaffold.Proofs.Spelling

namespace Scaffold.Contract

open Source SyntaxTree

variable {t u v b : SyntaxTree}

/-! ## The way down -/

/-- Parentheses and `readonly`. -/
def IsWrapped (t : SyntaxTree) : Prop := t.kind = .parenthesizedType ∨ t.kind = .readonlyType

/-- A type leads to the part that it has its name from. -/
inductive Leads : SyntaxTree → SyntaxTree → Prop
  | wrapped {t u : SyntaxTree} : IsWrapped t → t.namedChildren.head? = some u → Leads t u
  | item {t u : SyntaxTree} : t.kind = .arrayType → t.namedChildren.head? = some u → Leads t u
  | argument {t name args u : SyntaxTree} : t.kind = .genericType → t.child? .name = some name →
      wording name = "Array" → t.child? .typeArguments = some args →
      args.namedChildren.head? = some u → Leads t u
  | alternative {t u : SyntaxTree} : t.kind = .unionType → t.namedChildren.head? = some u →
      Leads t u

/-- A type without its parentheses and `readonly`. -/
inductive Core : SyntaxTree → SyntaxTree → Prop
  | self {t : SyntaxTree} : (IsWrapped t → ∀ u, ¬ Leads t u) → Core t t
  | inner {t u v : SyntaxTree} : IsWrapped t → Leads t u → Core u v → Core t v

/-- A union whose first alternative, without its parentheses, names nothing. -/
def Rejects (t b : SyntaxTree) : Prop :=
  t.kind = .unionType ∧ ∃ a, Leads t a ∧ Core a b ∧ Nameless b

/-- The way down from a type, up to a union that rejects its first alternative. -/
inductive Descends : SyntaxTree → SyntaxTree → Prop
  | refl (t : SyntaxTree) : Descends t t
  | step {t u v : SyntaxTree} : Leads t u → (∀ b, ¬ Rejects t b) → Descends u v → Descends t v

/-- A text that starts with a quote. -/
def IsQuoted (s : String) : Prop := ∃ c ∈ s.toList.head?, c ∈ ['\'', '"', Char.ofNat 96]

/-- The name that a type which leads nowhere has by itself: a reference that without its
    arguments, a literal that of its scalar, and any other type its text. -/
inductive Names (t : SyntaxTree) : String → Prop
  | reference : t.kind = .genericType → Names t (nameOf t)
  | absence : t.kind = .literalType → wording t ∈ emptyWords → Names t (wording t)
  | boolean : t.kind = .literalType → wording t ∈ ["true", "false"] → Names t "boolean"
  | string : t.kind = .literalType → IsQuoted (wording t) → Names t "string"
  | number : t.kind = .literalType → wording t ∉ emptyWords ++ ["true", "false"] →
      ¬ IsQuoted (wording t) → Names t "number"
  | text : t.kind ∉ [Kind.genericType, .literalType, .arrayType, .unionType] → Names t (wording t)

theorem isWrapper_iff : isWrapper t.kind = true ↔ IsWrapped t := by
  simp [isWrapper, IsWrapped]

theorem isNamedByPart_iff :
    isNamedByPart t.kind = true ↔ IsWrapped t ∨ t.kind = .arrayType ∨ t.kind = .unionType := by
  simp only [isNamedByPart, Bool.or_eq_true, isWrapper_iff, beq_iff_eq, or_assoc]

/-- A type leads to the part that names it. -/
theorem leads_iff : Leads t u ↔ namePart t = some u := by
  constructor
  · intro h
    cases h with
    | wrapped hk hu => rw [namePart_eq_head? (isNamedByPart_iff.2 (Or.inl hk)), hu]
    | item hk hu => rw [namePart_eq_head? (isNamedByPart_iff.2 (Or.inr (Or.inl hk))), hu]
    | alternative hk hu => rw [namePart_of_union hk, hu]
    | argument hk hname hword hargs hu =>
      simp [namePart, isNamedByPart, isWrapper, typeArgumentsOf, hk, hname, hword, hargs, hu]
  · intro h
    unfold namePart at h
    split at h
    · next hk =>
      rcases isNamedByPart_iff.1 hk with hk | hk | hk
      · exact .wrapped hk h
      · exact .item hk h
      · exact .alternative hk h
    · split at h
      · next hk =>
        rw [Bool.and_eq_true, beq_iff_eq, beq_iff_eq] at hk
        obtain ⟨name, hname, hword⟩ := Option.map_eq_some_iff.1 hk.2
        rw [typeArgumentsOf, if_pos (beq_iff_eq.2 hk.1)] at h
        split at h
        · next args hargs => exact .argument hk.1 hname hword hargs h
        · cases h
      · cases h

theorem Leads.unique (hu : Leads t u) (hv : Leads t v) : u = v :=
  Option.some.inj ((leads_iff.1 hu).symm.trans (leads_iff.1 hv))

theorem namePart_eq_none : (∀ u, ¬ Leads t u) ↔ namePart t = none := by
  simp only [leads_iff, Option.eq_none_iff_forall_ne_some, ne_eq]

theorem core_unwrap (t : SyntaxTree) : Core t (unwrap t) := by
  induction t using SyntaxTree.induct with
  | h t ih =>
    rw [unwrap_eq]
    by_cases hk : IsWrapped t
    · rw [if_pos (isWrapper_iff.2 hk)]
      cases hc : t.namedChildren.head? with
      | none =>
        refine .self fun _ u hu => ?_
        rw [leads_iff, namePart_eq_head? (isNamedByPart_iff.2 (Or.inl hk)), hc] at hu
        cases hu
      | some c =>
        exact .inner hk (.wrapped hk hc)
          (ih c (mem_children_of_namedChildren (List.mem_of_head? hc)))
    · rw [if_neg (mt isWrapper_iff.1 hk)]
      exact .self fun h => absurd h hk

theorem Core.unique (hu : Core t u) (hv : Core t v) : u = v := by
  induction hu with
  | self hno =>
    cases hv with
    | self => rfl
    | inner hk hl _ => exact absurd hl (hno hk _)
  | inner hk hl _ ih =>
    cases hv with
    | self hno => exact absurd hl (hno hk _)
    | inner _ hl' hv => exact ih (hl.unique hl' ▸ hv)

theorem core_iff : Core t u ↔ unwrap t = u :=
  ⟨fun h => (core_unwrap t).unique h, fun h => h ▸ core_unwrap t⟩

theorem rejects_iff :
    Rejects t b ↔ t.kind = .unionType ∧
      ∃ a, t.namedChildren.head? = some a ∧ unwrap a = b ∧ Nameless (unwrap a) := by
  unfold Rejects
  refine and_congr_right fun hk => exists_congr fun a => ?_
  rw [leads_iff, namePart_of_union hk, core_iff]
  exact and_congr_right fun _ => and_congr_right fun ha => ha ▸ Iff.rfl

/-! ## Names on the way down -/

theorem Leads.isText (hl : Leads t u) (h : t.IsText) : u.IsText :=
  isText_of_namePart h (leads_iff.1 hl)

theorem Descends.isText (hd : Descends t u) (h : t.IsText) : u.IsText := by
  induction hd with
  | refl => exact h
  | step hl _ _ ih => exact ih (hl.isText h)

theorem resolve_of_rejects (h : t.IsText) (hb : Rejects t b) :
    resolve t = .error (.unresolved (wording b)) := by
  obtain ⟨hk, a, ha, rfl, hn⟩ := rejects_iff.1 hb
  exact (resolve_error_iff h _).2 (.nameless hk ha hn)

theorem resolve_of_leads (h : t.IsText) (hl : Leads t u) (hno : ∀ b, ¬ Rejects t b) :
    resolve t = resolve u := by
  have hres := resolved h
  generalize resolve t = r at hres ⊢
  cases hres with
  | text hp => rw [leads_iff.1 hl] at hp; cases hp
  | noPart hk hcs => rw [leads_iff, namePart_of_noPart hk hcs] at hl; cases hl
  | nameless hk hc hn => exact absurd (rejects_iff.2 ⟨hk, _, hc, rfl, hn⟩) (hno _)
  | part hp => rw [hl.unique (leads_iff.2 hp)]

theorem resolve_of_descends (hd : Descends t u) (h : t.IsText) : resolve t = resolve u := by
  induction hd with
  | refl => rfl
  | step hl hno _ ih => rw [resolve_of_leads h hl hno, ih (hl.isText h)]

/-- Parts are smaller than the types they are parts of, so every way down ends. -/
theorem exists_descends (t : SyntaxTree) :
    ∃ u, Descends t u ∧ ((∃ b, Rejects u b) ∨ ∀ v, ¬ Leads u v) := by
  induction hsize : t.size using Nat.strong_induction_on generalizing t with
  | _ n ih =>
    subst hsize
    by_cases hb : ∃ b, Rejects t b
    · exact ⟨t, .refl t, Or.inl hb⟩
    by_cases hl : ∃ u, Leads t u
    · obtain ⟨u, hl⟩ := hl
      obtain ⟨v, hv, hend⟩ := ih u.size (size_lt_of_namePart (leads_iff.1 hl)) u rfl
      exact ⟨v, .step hl (not_exists.1 hb) hv, hend⟩
    · exact ⟨t, .refl t, Or.inr (not_exists.1 hl)⟩

/-! ## Names at the end of the way -/

theorem resolve_of_noPart (h : t.IsText) (hno : ∀ v, ¬ Leads t v)
    (hk : t.kind = .arrayType ∨ t.kind = .unionType) : resolve t = .error .shapeless := by
  have hpart := namePart_eq_none.1 hno
  rw [namePart_eq_head? (isNamedByPart_iff.2 (Or.inr hk)), List.head?_eq_none_iff] at hpart
  exact (resolve_error_iff h _).2 (.noPart hk hpart)

theorem not_isQuoted {s : String} (h : s ∈ emptyWords ++ ["true", "false"]) : ¬ IsQuoted s := by
  rintro ⟨c, hc, hquote⟩
  simp only [emptyWords, List.cons_append, List.nil_append, List.mem_cons, List.not_mem_nil,
    or_false] at h
  rcases h with rfl | rfl | rfl | rfl | rfl | rfl <;> (cases hc; revert hquote; decide)

open scoped Classical in
/-- The scalar of a literal by its first letter. -/
theorem literalScalar_eq (s : String) :
    literalScalar s =
      if s ∈ emptyWords then s
      else if s ∈ ["true", "false"] then "boolean"
      else if IsQuoted s then "string"
      else "number" := by
  have hquote (c : Char) : (c == '\'' || c == '"' || c.toNat == 96) = true ↔
      c ∈ ['\'', '"', Char.ofNat 96] := by
    have h96 : c.toNat = 96 ↔ c = Char.ofNat 96 :=
      ⟨fun h => by rw [← h, Char.ofNat_toNat], fun h => by rw [h]; rfl⟩
    simp [h96, or_assoc]
  unfold literalScalar IsQuoted
  refine ite_congr (by simp) (fun _ => rfl) fun _ =>
    ite_congr (by simp) (fun _ => rfl) fun _ => ?_
  cases s.toList with
  | nil => simp
  | cons c cs => simp only [hquote, List.head?_cons, Option.mem_some_iff, exists_eq_left']

/-- A type that is neither an array nor a union has one name by itself. -/
theorem names_iff {s : String} (ha : t.kind ≠ .arrayType) (hu : t.kind ≠ .unionType) :
    Names t s ↔ s = ownName t := by
  classical
  by_cases hg : t.kind = .genericType
  · rw [ownName, if_pos (beq_iff_eq.2 hg)]
    constructor
    · intro h
      cases h <;> simp_all
    · rintro rfl
      exact .reference hg
  by_cases hl : t.kind = .literalType
  · rw [ownName, if_neg (mt beq_iff_eq.1 hg), if_pos (beq_iff_eq.2 hl), literalScalar_eq]
    constructor
    · intro h
      cases h with
      | reference hk => exact absurd hk hg
      | absence _ he => rw [if_pos he]
      | boolean _ hb =>
        have he : wording t ∉ emptyWords := by
          simp only [List.mem_cons, List.not_mem_nil, or_false] at hb
          rcases hb with hb | hb <;> rw [hb] <;> decide
        rw [if_neg he, if_pos hb]
      | string _ hq =>
        -- no word with a meaning of its own starts with a quote
        have hword := mt not_isQuoted (not_not.2 hq)
        rw [List.mem_append, not_or] at hword
        rw [if_neg hword.1, if_neg hword.2, if_pos hq]
      | number _ hword hq =>
        rw [List.mem_append, not_or] at hword
        rw [if_neg hword.1, if_neg hword.2, if_neg hq]
      | text hk => simp [hl] at hk
    · rintro rfl
      split
      · next he => exact .absence hl he
      · next he =>
        split
        · next hb => exact .boolean hl hb
        · next hb =>
          split
          · next hq => exact .string hl hq
          · next hq => exact .number hl (by simp only [List.mem_append, he, hb, or_self]; simp) hq
  · rw [ownName, if_neg (mt beq_iff_eq.1 hg), if_neg (mt beq_iff_eq.1 hl)]
    constructor
    · intro h
      cases h <;> simp_all
    · rintro rfl
      exact .text (by simp [hg, hl, ha, hu])

/-- A type that leads nowhere has its own name, unless it is an array or a union. -/
theorem resolve_of_end (h : t.IsText) (hno : ∀ v, ¬ Leads t v) (ha : t.kind ≠ .arrayType)
    (hu : t.kind ≠ .unionType) : resolve t = .ok (ownName t) :=
  resolve_of_namePart h (namePart_eq_none.1 hno) ha hu

/-! ## Sequences -/

/-- An array or `Array` with an argument. -/
def IsSequence (t : SyntaxTree) : Prop :=
  t.kind = .arrayType ∨ (t.kind = .genericType ∧ ∃ v, Leads t v)

theorem isArray_iff (h : t.IsText) : isArray t = .ok true ↔ IsSequence t := by
  unfold isArray IsSequence
  by_cases ha : t.kind = .arrayType
  · simp [ha]
  rw [if_neg (mt beq_iff_eq.1 ha)]
  by_cases hg : t.kind = .genericType
  · rw [isArrayReference_eq h hg]
    simp only [leads_iff, namePart, isNamedByPart, isWrapper, hg]
    cases hn : (t.child? .name).map wording == some "Array" <;>
    cases typeArgumentsOf t <;> simp
  · simp [isArrayReference, ha, hg]

theorem isRepeated_iff (h : t.IsText) :
    isRepeated t = .ok true ↔ ∃ u, Core t u ∧ IsSequence u := by
  rw [isRepeated, isArray_iff (isText_unwrap h)]
  simp only [core_iff, exists_eq_left']

theorem Names.kind_ne {s : String} (h : Names t s) :
    t.kind ≠ .arrayType ∧ t.kind ≠ .unionType := by
  cases h <;> simp_all

/-! ## Types by their leftmost alternative -/

/-- The three ends of the way down from a type, and what each makes of the type. -/
theorem resolve_cases (h : t.IsText) : ∃ u, Descends t u ∧
    ((∃ b, Rejects u b ∧ resolve t = .error (.unresolved (wording b))) ∨
      (∀ v, ¬ Leads u v) ∧
        ((u.kind = .arrayType ∨ u.kind = .unionType) ∧ resolve t = .error .shapeless ∨
          ∃ name, Names u name ∧ resolve t = .ok name)) := by
  obtain ⟨u, hd, hend⟩ := exists_descends t
  have hu := hd.isText h
  rw [resolve_of_descends hd h]
  refine ⟨u, hd, ?_⟩
  rcases hend with ⟨b, hb⟩ | hno
  · exact Or.inl ⟨b, hb, resolve_of_rejects hu hb⟩
  · refine Or.inr ⟨hno, ?_⟩
    by_cases hk : u.kind = .arrayType ∨ u.kind = .unionType
    · exact Or.inl ⟨hk, resolve_of_noPart hu hno hk⟩
    · rw [not_or] at hk
      exact Or.inr ⟨_, (names_iff hk.1 hk.2).2 rfl, resolve_of_end hu hno hk.1 hk.2⟩

theorem resolve_unresolved_iff (h : t.IsText) (text : String) :
    resolve t = .error (.unresolved text) ↔
      ∃ u b, Descends t u ∧ Rejects u b ∧ wording b = text := by
  constructor
  · intro hr
    obtain ⟨u, hd, ⟨b, hb, he⟩ | ⟨-, ⟨-, he⟩ | ⟨name, -, he⟩⟩⟩ := resolve_cases h
    · rw [hr] at he
      cases he
      exact ⟨u, b, hd, hb, rfl⟩
    · rw [hr] at he; cases he
    · rw [hr] at he; cases he
  · rintro ⟨u, b, hd, hb, rfl⟩
    rw [resolve_of_descends hd h, resolve_of_rejects (hd.isText h) hb]

theorem resolve_ok_iff (h : t.IsText) (name : String) :
    resolve t = .ok name ↔ ∃ u, Descends t u ∧ (∀ v, ¬ Leads u v) ∧ Names u name := by
  constructor
  · intro hr
    obtain ⟨u, hd, ⟨b, -, he⟩ | ⟨hno, ⟨-, he⟩ | ⟨name, hn, he⟩⟩⟩ := resolve_cases h
    · rw [hr] at he; cases he
    · rw [hr] at he; cases he
    · rw [hr] at he
      cases he
      exact ⟨u, hd, hno, hn⟩
  · rintro ⟨u, hd, hno, hn⟩
    obtain ⟨ha, hu⟩ := hn.kind_ne
    rw [resolve_of_descends hd h, resolve_of_end (hd.isText h) hno ha hu, (names_iff ha hu).1 hn]

theorem resolve_shapeless_iff (h : t.IsText) :
    resolve t = .error .shapeless ↔ ∃ u, Descends t u ∧ (∀ v, ¬ Leads u v) ∧
      (u.kind = .arrayType ∨ u.kind = .unionType) := by
  constructor
  · intro hr
    obtain ⟨u, hd, ⟨b, -, he⟩ | ⟨hno, ⟨hk, -⟩ | ⟨name, -, he⟩⟩⟩ := resolve_cases h
    · rw [hr] at he; cases he
    · exact ⟨u, hd, hno, hk⟩
    · rw [hr] at he; cases he
  · rintro ⟨u, hd, hno, hk⟩
    rw [resolve_of_descends hd h, resolve_of_noPart (hd.isText h) hno hk]

/-- **The name of a type is that of its leftmost alternative.** Where the way down from a type
    comes to a union that rejects its first alternative, the type is unresolved, with the text of
    the alternative; where it ends at an array or a union without parts, the type has no shape;
    else it ends at a type that has a name by itself, and this is the name. A type is a sequence if
    it is one without its parentheses. So parentheses and `readonly` change neither answer, and a
    sequence has the name of its items. -/
theorem resolve_leftmost (h : t.IsText) :
    (∀ text, resolve t = .error (.unresolved text) ↔
      ∃ u b, Descends t u ∧ Rejects u b ∧ wording b = text) ∧
    (∀ name, resolve t = .ok name ↔ ∃ u, Descends t u ∧ (∀ v, ¬ Leads u v) ∧ Names u name) ∧
    (resolve t = .error .shapeless ↔ ∃ u, Descends t u ∧ (∀ v, ¬ Leads u v) ∧
      (u.kind = .arrayType ∨ u.kind = .unionType)) ∧
    (∀ fault, resolve t ≠ .error (.undecodable fault)) ∧
    (isRepeated t = .ok true ↔ ∃ u, Core t u ∧ IsSequence u) ∧
    (isRepeated t = .ok false ↔ ¬ ∃ u, Core t u ∧ IsSequence u) ∧
    (∀ u, IsWrapped t → Leads t u → resolve t = resolve u ∧ isRepeated t = isRepeated u) ∧
    (∀ u, IsSequence t → Leads t u → resolve t = resolve u ∧ isRepeated t = .ok true) := by
  have hrepeated := isRepeated_iff h
  have hleads {u : SyntaxTree} (hk : t.kind ≠ .unionType) (hl : Leads t u) :
      resolve t = resolve u := resolve_of_leads h hl fun _ hr => hk hr.1
  refine ⟨resolve_unresolved_iff h, resolve_ok_iff h, resolve_shapeless_iff h, fun fault hr => ?_,
    hrepeated, ?_, fun u hk hl => ⟨hleads ?_ hl, ?_⟩, fun u hk hl => ⟨hleads ?_ hl, ?_⟩⟩
  · rcases ((resolve_error_iff h _).1 hr).cases with he | ⟨text, he⟩ <;> cases he
  · obtain ⟨b, hb⟩ := isRepeated_ok h
    rw [← hrepeated, hb]
    cases b <;> simp
  · rcases hk with hk | hk <;> simp [hk]
  · have hwhole := core_iff.1 (.inner hk hl (core_unwrap u))
    rw [isRepeated, isRepeated, hwhole]
  · rcases hk with hk | ⟨hk, -⟩ <;> simp [hk]
  · refine hrepeated.2 ⟨t, .self fun hw => ?_, hk⟩
    rcases hw with hw | hw <;> rcases hk with hk | ⟨hk, -⟩ <;> simp [hw] at hk

/-- The type of the first property of the first declaration of a source. -/
def typeIn (source : String) : Option SyntaxTree :=
  (topLevel (parse (Text.ofString source))).head?.bind fun m =>
    (properties m.2).head?.bind fun p => memberType p.2

theorem isText_typeIn {source : String} (h : typeIn source = some t) : t.IsText := by
  have hparse := isText_of_sound (parse_sound (Text.noSurrogate_ofString source))
  obtain ⟨m, hm, h⟩ := Option.bind_eq_some_iff.1 h
  obtain ⟨p, hp, h⟩ := Option.bind_eq_some_iff.1 h
  have hm := isText_topLevel hparse (List.mem_of_head? hm)
  exact isText_of_memberType (pairIsText_properties hm (List.mem_of_head? hp)).1 h

/-- The items of an array are a union in a union that rejects the object it starts with; the first
    alternative of an argument is a literal; and the items of `const[]` are no node. -/
theorem resolve_leftmost_source :
    (∃ t, typeIn "interface X \x7b f: readonly ((\x7b\x7d | A) | B)[]; \x7d" = some t ∧
      isRepeated t = .ok true ∧
      ∃ u b, Descends t u ∧ Rejects u b ∧ wording b = "\x7b\x7d") ∧
    (∃ t, typeIn "interface X \x7b f: (Array<('a' | A) | B, C>); \x7d" = some t ∧
      isRepeated t = .ok true ∧
      ∃ u, Descends t u ∧ (∀ v, ¬ Leads u v) ∧ Names u "string") ∧
    ∃ t, typeIn "interface X \x7b f: const[]; \x7d" = some t ∧
      isRepeated t = .ok true ∧
      ∃ u, Descends t u ∧ (∀ v, ¬ Leads u v) ∧ (u.kind = .arrayType ∨ u.kind = .unionType) := by
  have hread {source : String} {P : SyntaxTree → Prop} (r : Except TypeFault String)
      (h : (typeIn source).map (fun t => (resolve t, isRepeated t)) = some (r, .ok true))
      (hP : ∀ t, t.IsText → resolve t = r → P t) :
      ∃ t, typeIn source = some t ∧ isRepeated t = .ok true ∧ P t := by
    obtain ⟨t, ht, hr⟩ := Option.map_eq_some_iff.1 h
    obtain ⟨hname, hrepeated⟩ := Prod.mk.inj hr
    exact ⟨t, ht, hrepeated, hP t (isText_typeIn ht) hname⟩
  refine ⟨?_, ?_, ?_⟩
  · exact hread (.error (.unresolved "\x7b\x7d")) (by decide +kernel) fun t ht =>
      ((resolve_leftmost ht).1 _).1
  · exact hread (.ok "string") (by decide +kernel) fun t ht => ((resolve_leftmost ht).2.1 _).1
  · exact hread (.error .shapeless) (by decide +kernel) fun t ht => (resolve_leftmost ht).2.2.1.1

end Scaffold.Contract
