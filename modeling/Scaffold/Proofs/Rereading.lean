/-
  How the name of a repeated field is read again.

  A sequence of a type with the name `n` is spelled `n[]`, or `Array<n>` where `n` has a blank or an
  angle. Angles hold a whole type, while brackets stand behind the last part of one: `n[]` is an
  array of `n` only where brackets can follow `n`. Elsewhere they become a part of `n`
  (`Spelt.brackets`), and the type is read as a single value. **`spellMany_reread`** tells one from
  the other.

  For brackets this is said of the names that `Spelt` covers, which are not all types. It is said of
  these whether or not a field has such a type: that the name of every type is one of them is not
  shown.
-/
import Mathlib
import Scaffold.Proofs.FieldReading

namespace Scaffold.Source

open Pattern Grammar

section

variable {e : Ending} {l : Level} {k : Kind} {x z : Text}

/-! ## Brackets behind a type -/

/-- Inside brackets lines may end anywhere. -/
theorem Spelt.inside (h : Spelt e l k x) : Spelt .inside l k x := by
  induction h with
  | path hx => exact .path hx
  | keyword hw => exact .keyword hw
  | value hw => exact .value hw
  | string hq hbody => exact .string hq hbody
  | number hne hds => exact .number hne hds
  | query hg hne hy hw hsteps =>
    exact .query hg hne hy hw fun i hi => ⟨(hsteps i hi).1, Or.inl rfl, (hsteps i hi).2.2⟩
  | group hg hx hgroup hg' _ => exact .group hg hx hgroup hg'
  | tuple hfits hitems hg _ => exact .tuple hfits hitems hg
  | empty hg => exact .empty hg
  | object hfits hitems hlast _ => exact .object hfits hitems hlast
  | generic hx hg hfits hitems hg' _ => exact .generic hx hg hfits hitems hg'
  | array _ hg _ hg' ih => exact .array ih hg (Or.inl rfl) hg'
  | lookup _ hg _ hg₁ ht hg₂ ih _ => exact .lookup ih hg (Or.inl rfl) hg₁ ht hg₂
  | primary _ ih => exact .primary ih
  | keyof hg hne _ ih => exact .keyof hg hne ih
  | operand _ ih => exact .operand ih
  | both _ hg _ hg' _ ih ihy => exact .both ih hg (Or.inl rfl) hg' ihy
  | meet _ ih => exact .meet ih
  | either _ hg _ hg' _ ih ihy => exact .either ih hg (Or.inl rfl) hg' ihy
  | union _ ih => exact .union ih
  | choice _ hg _ hne hg₁ hne₁ h₁ hg₂ hg₃ h₂ hg₄ hg₅ _ ih _ _ ih₃ =>
    exact .choice ih hg (Or.inl rfl) hne hg₁ hne₁ h₁ hg₂ hg₃ h₂ hg₄ hg₅ ih₃
  | function hfits hitems hg hg₁ hg₂ _ hw _ ih => exact .function hfits hitems hg hg₁ hg₂ ih hw

/-- A type that brackets can follow may stand wherever a type can. -/
theorem Spelt.anywhere (h : Spelt e .primary k x) : Spelt e l k x := by
  cases l with
  | primary => exact h
  | operand => exact .primary h
  | meet => exact .operand (.primary h)
  | union => exact .meet (.operand (.primary h))
  | whole => exact .union (.meet (.operand (.primary h)))

theorem Spelt.bare_array (h : Spelt e .primary k x) :
    Spelt e .primary .arrayType (x ++ Text.ofString "[]") :=
  h.array .nil (Or.inr (by simp [Inline])) .nil

/-- What a result does not start with, it does not start with in front of brackets either. -/
theorem Starts.lacks_result (h : Starts l x) (hz : Stops z) {w : String} (hmem : w ∈ resultWords)
    (hw : scanWord w x = none) : scanWord w (x ++ z) = none := by
  have hall : (resultWords.all fun w => (w.toList.head?.any fun d => !startSigns.contains d &&
      !Text.isAsciiDigit d) && w.toList.all isNameChar) = true := by decide
  obtain ⟨hhead, hchars⟩ := Bool.and_eq_true_iff.1 (List.all_eq_true.1 hall w hmem)
  cases h with
  | sign hc _ => exact hc.lacks_word _ hhead
  | name hy _ hr =>
    rw [List.append_assoc]
    exact scanWord_of_ne hy (hr.stops hz) hchars (hr.ne_word hw)

/-- **Brackets behind a type**, if they do not make an array of it, become a part of it. -/
theorem Spelt.brackets (h : Spelt e l k x) :
    Spelt e .primary k x ∨ Spelt e l k (x ++ Text.ofString "[]") := by
  have hpart {e : Ending} {l : Level} {k : Kind} {y : Text}
      (h : Spelt e .primary k y ∨ Spelt e l k (y ++ Text.ofString "[]")) :
      ∃ k', Spelt e l k' (y ++ Text.ofString "[]") :=
    h.elim (fun h => ⟨_, h.bare_array.anywhere⟩) fun h => ⟨_, h⟩
  induction h with
  | path hx => exact Or.inl (.path hx)
  | keyword hw => exact Or.inl (.keyword hw)
  | value hw => exact Or.inl (.value hw)
  | string hq hbody => exact Or.inl (.string hq hbody)
  | number hne hds => exact Or.inl (.number hne hds)
  | query hg hne hy hw hsteps => exact Or.inl (.query hg hne hy hw hsteps)
  | group hg hx hgroup hg' _ => exact Or.inl (.group hg hx hgroup hg')
  | tuple hfits hitems hg _ => exact Or.inl (.tuple hfits hitems hg)
  | empty hg => exact Or.inl (.empty hg)
  | object hfits hitems hlast _ => exact Or.inl (.object hfits hitems hlast)
  | generic hx hg hfits hitems hg' _ => exact Or.inl (.generic hx hg hfits hitems hg')
  | array h hg hj hg' _ => exact Or.inl (.array h hg hj hg')
  | lookup h hg hj hg₁ ht hg₂ _ _ => exact Or.inl (.lookup h hg hj hg₁ ht hg₂)
  | primary h _ => exact Or.inl h
  | keyof hg hne h _ =>
    right
    simpa only [List.append_assoc] using Spelt.keyof hg hne h.bare_array
  | operand _ ih => exact ih.imp_right .operand
  | both h hg hj hg' _ _ ihy =>
    obtain ⟨k', hy⟩ := hpart ihy
    right
    simpa only [List.append_assoc] using Spelt.both h hg hj hg' hy
  | meet _ ih => exact ih.imp_right .meet
  | either h hg hj hg' _ _ ihy =>
    obtain ⟨k', hy⟩ := hpart ihy
    right
    simpa only [List.append_assoc] using Spelt.either h hg hj hg' hy
  | union _ ih => exact ih.imp_right .union
  | choice h hg hj hne hg₁ hne₁ h₁ hg₂ hg₃ h₂ hg₄ hg₅ _ _ _ _ ih₃ =>
    obtain ⟨k', h₃⟩ := hpart ih₃
    right
    simpa only [List.append_assoc] using
      Spelt.choice h hg hj hne hg₁ hne₁ h₁ hg₂ hg₃ h₂ hg₄ hg₅ h₃
  | function hfits hitems hg hg₁ hg₂ ht hw _ ih =>
    obtain ⟨k', h⟩ := hpart ih
    right
    simpa only [List.append_assoc] using Spelt.function hfits hitems hg hg₁ hg₂ h fun w hmem =>
      ht.starts.lacks_result (IsSign.stops (by decide) _) hmem (hw w hmem)

end

end Scaffold.Source

namespace Scaffold.Contract

open Source Source.Pattern Source.Grammar

/-! ## Sequences -/

/-- An array, or `Array` with an argument, of a type. -/
structure IsSequenceOf (k : Kind) (x : Text) (w : SyntaxTree) : Prop where
  kind : w.kind = .arrayType ∨ w.kind = .genericType
  part : ∃ u, Leads w u ∧ IsNode k x u
  whole : ¬ w.Broken

section

variable {k : Kind} {x z : Text}

theorem isNamed_of_isNode {u : SyntaxTree} (h : IsNode k x u) (hk : k ≠ .token) :
    u.isNamed = true := by
  simp [SyntaxTree.isNamed, h.kind, hk]

/-- A type with brackets behind it. -/
theorem takes_brackets (hk : k ≠ .token) (h : Spelt .member .primary k x) (hz : Closes z) :
    Takes 8 (.rule (.type .member)) (x ++ Text.ofString "[]") z (Single (IsSequenceOf k x)) := by
  obtain ⟨i, hi, hgrows⟩ := h.readable rfl
  have hs := h.bare_array.starts
  have hstep : Takes 20 (bracketStep .member) (Text.ofString "[]") z _ :=
    takes_array .nil (Or.inr (by simp [Inline])) .nil
  have hends : Ends Level.primary.ends (Text.ofString "[]" ++ z) :=
    IsSign.ends (by decide) (by decide) .nil _
  have hmore := (hgrows _ hends).more h.starts.ne_nil hstep
  have hprimary := takes_primary hmore (by simp [Text.ofString]; omega)
    (hz.ends.mono (by simp [joiners])) (hs.solid z)
  refine (takes_whole (takes_operand hprimary hs (by simp) hz.stops) hs hz).imp ?_
  rintro ts ⟨w, rfl, u, outer, hu, houter, hw⟩
  have hnode := isNode_of_grafted (by decide) hu.whole houter hw
  refine ⟨w, rfl, Or.inl hnode.kind, ⟨u, .item hnode.kind ?_, hu⟩, hnode.whole⟩
  obtain ⟨o, cs, -, rfl⟩ := hw
  simp [SyntaxTree.namedChildren, SyntaxTree.children, isNamed_of_isNode hu hk]

/-- A type as an argument. -/
theorem takes_argument (hne : x ≠ []) (h : ReadsType .inside k x) :
    Takes 0 argumentList (Text.ofString "<" ++ (x ++ Text.ofString ">")) z fun ts => ∃ o o' u,
      IsNode k x u ∧
        ts = [.leaf .token o (Text.ofString "<"), u, .leaf .token o' (Text.ofString ">")] := by
  have hopen {t : Text} : Takes 0 (sym "<") (Text.ofString "<") t _ :=
    takes_lexeme_here (IsSign.solid (by decide) _) (scanSymbol_append "<" _)
  have hclose : Takes 20 (sym ">") (Text.ofString ">") z _ :=
    takes_lexeme_here (IsSign.solid (by decide) _) (scanSymbol_append ">" _)
  have hends : Ends [","] (Text.ofString ">" ++ z) := IsSign.ends (by decide) (by decide) .nil z
  have hcloses : Closes (Text.ofString ">" ++ z) := IsSign.closes (by decide) (by decide) .nil z
  have htype := (h _ hcloses).mono (show 8 ≤ 20 by decide)
  have hmore : Passes 20 (.many (.seq (sym ",") (.rule (.type .inside))))
      (Text.ofString ">" ++ z) :=
    hends.passes fun s hs => Or.inl (hs "," (by simp))
  have hlast : Passes 20 (opt (sym ",")) (Text.ofString ">" ++ z) :=
    hends.passes fun s hs => ⟨hs "," (by simp), trivial⟩
  have hlist : Takes 20 (commaList (.rule (.type .inside))) x (Text.ofString ">" ++ z) _ :=
    (htype.before hmore).before hlast
  refine (hopen.seq (by decide) (hlist.seq hne hclose)).imp ?_
  rintro ts ⟨_, _, rfl, ⟨_, rfl, o, rfl⟩, _, _, rfl, ⟨u, rfl, hu⟩, _, rfl, o', rfl⟩
  exact ⟨o, o', u, hu, rfl⟩

/-- `Array` with an argument leads to that argument. -/
theorem isSequenceOf_reference (hk : k ≠ .token) {name u args : SyntaxTree} {cs : List SyntaxTree}
    (hname : IsNode .typeName (Text.ofString "Array") name) (hcs : ∀ t ∈ cs, IsRemark t)
    (hu : IsNode k x u) {o o₁ o₂ o₃ : Nat} {t y s s' : Text}
    (hargs : args = .node .typeArguments (some .typeArguments) o₁ y
      [.leaf .token o₂ s, u, .leaf .token o₃ s']) :
    IsSequenceOf k x (.node .genericType none o t (name.withRole .name :: cs ++ [args])) := by
  have hrole : (name.withRole .name).role = some .name := by cases name; rfl
  have htext : (name.withRole .name).text = Text.ofString "Array" := by cases name; exact hname.text
  have hword : wording (name.withRole .name) = "Array" := by
    rw [wording, htext, Text.toString?_ofString, Option.getD_some]
  have hremark : cs.find? (fun c => c.role == some .typeArguments) = none := by
    rw [List.find?_eq_none]
    intro c hc
    simp [(hcs c hc).role]
  have hrole' : args.role = some .typeArguments := by rw [hargs]; rfl
  have hpart : args.namedChildren.head? = some u := by
    have hsign {o : Nat} {t : Text} : (SyntaxTree.leaf .token o t).isNamed = false := rfl
    simp [hargs, SyntaxTree.namedChildren, SyntaxTree.children, hsign, isNamed_of_isNode hu hk]
  have hsane : ¬ args.Broken := by
    have hsign {o : Nat} {t : Text} : ¬ (SyntaxTree.leaf .token o t).Broken :=
      SyntaxTree.not_broken_leaf (by decide) (by decide)
    rw [hargs]
    exact (isNode_node (by decide) (by simp [Sane, hsign, hu.whole])).whole
  refine ⟨Or.inr rfl, ⟨u, .argument rfl ?_ hword ?_ hpart, hu⟩, (isNode_node (by decide) ?_).whole⟩
  · simp [SyntaxTree.child?, SyntaxTree.children, hrole]
  · simp [SyntaxTree.child?, SyntaxTree.children, hrole, hremark, hrole']
  · refine List.forall_mem_append.2 ⟨List.forall_mem_cons.2 ⟨?_, fun c hc => (hcs c hc).whole⟩,
      List.forall_mem_singleton.2 hsane⟩
    exact mt SyntaxTree.broken_withRole.1 hname.whole

/-- A type between the angles of `Array`. -/
theorem takes_angles (hk : k ≠ .token) (hne : x ≠ []) (h : ReadsType .inside k x) (hz : Closes z) :
    Takes 8 (.rule (.type .member)) (Text.ofString "Array" ++ (Text.ofString "<" ++ (x ++
      Text.ofString ">"))) z (Single (IsSequenceOf k x)) := by
  have hpath : IsPath .typeName (Text.ofString "Array") :=
    .name (by rw [IsName]; decide) (by decide)
  have hargs := takes_argument (z := z) hne h
  have hsolid : Solid (Text.ofString "<" ++ (x ++ Text.ofString ">") ++ z) :=
    IsSign.solid (by decide) _
  have hs : Starts .primary
      (Text.ofString "Array" ++ (Text.ofString "<" ++ (x ++ Text.ofString ">"))) :=
    hpath.starts.append_sign .nil (by decide) (by decide) _
  have hends : Ends ["."] (Text.ofString "<" ++ (x ++ Text.ofString ">") ++ z) :=
    IsSign.ends (by decide) (by decide) .nil _
  generalize Text.ofString "<" ++ (x ++ Text.ofString ">") = y at hargs hsolid hs hends ⊢
  have hstep := takes_argumentStep (g := []) hargs .nil hsolid
  have hnamed : Takes 0 namedType (Text.ofString "Array" ++ y) z _ :=
    ((hpath.takes hends).grows.more (by decide) hstep).takes_once (hs.solid z)
  have hprimary := takes_primary (takes_reference (e := .member) hpath hends.stops hnamed).grows
    (Nat.zero_le _) (hz.ends.mono (by simp [joiners])) (hs.solid z)
  refine (takes_whole (takes_operand hprimary hs (by simp) hz.stops) hs hz).imp ?_
  rintro ts ⟨w, rfl, name, outer, hname, ⟨o₁, o₂, _, ⟨o₃, o₄, u, hu, rfl⟩, rfl⟩, o, cs, hcs, rfl⟩
  exact ⟨_, rfl, isSequenceOf_reference hk hname hcs hu rfl⟩

end

/-! ## Names -/

/-- The kinds of the types that have their text for a name. -/
def plainKinds : List Kind :=
  [.typeName, .nestedTypeName, .objectType, .functionType, .constructorType, .otherType]

section

variable {k : Kind} {n : String} {t : SyntaxTree}

theorem resolve_of_plain (hk : k ∈ plainKinds) (h : IsNode k (Text.ofString n) t) (ht : t.IsText) :
    isRepeated t = .ok false ∧ resolve t = .ok n := by
  have hall : (plainKinds.all fun k => !isNamedByPart k && k != .genericType && k != .literalType) =
      true := by decide
  have hplain := List.all_eq_true.1 hall k hk
  simp only [Bool.and_eq_true, Bool.not_eq_true', bne_iff_ne, ← h.kind] at hplain
  obtain ⟨⟨hpart, hgeneric⟩, hliteral⟩ := hplain
  have hnone : namePart t = none := by simp [namePart, hpart, hgeneric]
  simp only [isNamedByPart, Bool.or_eq_false_iff, beq_eq_false_iff_ne] at hpart
  obtain ⟨⟨hwrapper, harray⟩, hunion⟩ := hpart
  refine ⟨?_, ?_⟩
  · rw [isRepeated, unwrap_eq, if_neg (by simp [hwrapper])]
    simp [isArray, isArrayReference, harray, hgeneric]
  · rw [resolve_of_namePart ht hnone harray hunion]
    simp [ownName, hgeneric, hliteral, wording, h.text, Text.toString?_ofString]

theorem resolve_of_sequence (hk : k ∈ plainKinds) (h : IsSequenceOf k (Text.ofString n) t)
    (ht : t.IsText) : isRepeated t = .ok true ∧ resolve t = .ok n := by
  obtain ⟨u, hl, hu⟩ := h.part
  have hkind : ¬ IsWrapped t ∧ t.kind ≠ .unionType := by
    rcases h.kind with hk | hk <;> simp [IsWrapped, hk]
  refine ⟨(isRepeated_iff ht).2 ⟨t, .self fun hw => absurd hw hkind.1, ?_⟩, ?_⟩
  · exact h.kind.imp_right fun hk => ⟨hk, u, hl⟩
  · rw [resolve_of_leads ht hl fun b hb => hkind.2 hb.1]
    exact (resolve_of_plain hk hu (hl.isText ht)).2

end

/-! ## Spelling and reading -/

/-- A type is read as repeated or not, with a name. -/
def ReadAs (type : String) (repeated : Bool) (name : String) : Prop :=
  (parse (Text.ofString (fieldSource type))).firstError = none ∧
    ∃ t, typeIn (fieldSource type) = some t ∧ isRepeated t = .ok repeated ∧ resolve t = .ok name

theorem ReadAs.unique {type name name' : String} {b b' : Bool} (h : ReadAs type b name)
    (h' : ReadAs type b' name') : b = b' ∧ name = name' := by
  obtain ⟨-, t, ht, hb, hn⟩ := h
  obtain ⟨-, t', ht', hb', hn'⟩ := h'
  cases ht.symm.trans ht'
  exact ⟨Except.ok.inj (hb.symm.trans hb'), Except.ok.inj (hn.symm.trans hn')⟩

theorem spellMany_eq {n : String} (hn : isScalar n = false) :
    Language.typescript.spellMany n =
      if ' ' ∈ n.toList ∨ '<' ∈ n.toList then "Array<" ++ n ++ ">" else n ++ "[]" := by
  have hspell : Language.typescript.spell n = n := by
    have hnone : Language.typescript.scalars.find? (fun s => s.1 == n) = none := by
      rw [List.find?_eq_none]
      simpa [isScalar] using hn
    rw [Language.spell, hnone]
  have hsign : (n.toList.any fun c => c == ' ' || c == '<') = true ↔
      ' ' ∈ n.toList ∨ '<' ∈ n.toList := by
    simp [and_or_left, exists_or]
  simp only [Language.spellMany, hspell, hsign]

section

variable {k : Kind} {n : String}

theorem ne_token (hk : k ∈ plainKinds) : k ≠ .token := by
  rintro rfl
  revert hk
  decide

theorem readAs_of_takes {R : SyntaxTree → Prop} {type : String} {b : Bool}
    (hR : ∀ t, R t → t.isNamed = true ∧ ¬ t.Broken) (hs : ∀ z, Solid (Text.ofString type ++ z))
    (h : ∀ z, Closes z → Takes 8 (.rule (.type .member)) (Text.ofString type) z (Single R))
    (hread : ∀ t, R t → t.IsText → isRepeated t = .ok b ∧ resolve t = .ok n) : ReadAs type b n := by
  obtain ⟨herror, t, ht, hRt⟩ := typeIn_fieldSource hR hs h
  exact ⟨herror, t, ht, hread t hRt (isText_typeIn ht)⟩

theorem IsSequenceOf.isNamed {x : Text} {w : SyntaxTree} (h : IsSequenceOf k x w) :
    w.isNamed = true := by
  rcases h.kind with hk | hk <;> simp [SyntaxTree.isNamed, hk]

theorem readAs_angles (hk : k ∈ plainKinds) (hne : n ≠ "")
    (h : ReadsType .inside k (Text.ofString n)) : ReadAs ("Array<" ++ n ++ ">") true n := by
  have hopen : Text.ofString "Array<" = Text.ofString "Array" ++ Text.ofString "<" := rfl
  have htext : Text.ofString ("Array<" ++ n ++ ">") = Text.ofString "Array" ++ (Text.ofString "<" ++
      (Text.ofString n ++ Text.ofString ">")) := by
    rw [← List.append_assoc, ← hopen, ← List.append_assoc, ← Text.ofString_append,
      ← Text.ofString_append]
  have hname : IsName (Text.ofString "Array") := by rw [IsName]; decide
  refine readAs_of_takes (R := IsSequenceOf k (Text.ofString n))
    (fun t ht => ⟨ht.isNamed, ht.whole⟩) ?_ ?_ fun t => resolve_of_sequence hk
  · intro z
    rw [htext, List.append_assoc]
    exact hname.solid _
  · intro z hz
    rw [htext]
    exact takes_angles (ne_token hk) (fun h => hne (Text.ofString_injective h)) h hz

theorem readAs_brackets (hk : k ∈ plainKinds) (h : Spelt .member .primary k (Text.ofString n)) :
    ReadAs (n ++ "[]") true n := by
  refine readAs_of_takes (R := IsSequenceOf k (Text.ofString n))
    (fun t ht => ⟨ht.isNamed, ht.whole⟩) ?_ ?_ fun t => resolve_of_sequence hk
  · intro z
    rw [Text.ofString_append]
    exact h.bare_array.starts.solid z
  · intro z hz
    rw [Text.ofString_append]
    exact takes_brackets (ne_token hk) h hz

theorem readAs_single (hk : k ∈ plainKinds) (h : Spelt .member .whole k (Text.ofString n)) :
    ReadAs n false n :=
  readAs_of_takes (R := IsNode k (Text.ofString n))
    (fun _ ht => ⟨isNamed_of_isNode ht (ne_token hk), ht.whole⟩) (h.starts.solid ·)
    (h.readable rfl).takes fun _ => resolve_of_plain hk

/-- **The spelling of a repeated type is read again** as a sequence of the same type where it uses
    angles; brackets make a sequence exactly of the types that brackets can follow, and become a
    part of all others. -/
theorem spellMany_reread (hn : isScalar n = false) (hk : k ∈ plainKinds) :
    (' ' ∈ n.toList ∨ '<' ∈ n.toList → ReadsType .inside k (Text.ofString n) →
      ReadAs (Language.typescript.spellMany n) true n) ∧
    (¬ (' ' ∈ n.toList ∨ '<' ∈ n.toList) → Spelt .member .whole k (Text.ofString n) →
      (ReadAs (Language.typescript.spellMany n) true n ↔
        Spelt .member .primary k (Text.ofString n)) ∧
      (ReadAs (Language.typescript.spellMany n) false (n ++ "[]") ↔
        ¬ Spelt .member .primary k (Text.ofString n))) := by
  rw [spellMany_eq hn]
  refine ⟨fun hsign h => ?_, fun hsign h => ?_⟩
  · rw [if_pos hsign]
    refine readAs_angles hk ?_ h
    rintro rfl
    simp at hsign
  · rw [if_neg hsign]
    have hopen (hno : ¬ Spelt .member .primary k (Text.ofString n)) :
        ReadAs (n ++ "[]") false (n ++ "[]") := by
      have hbrackets := h.brackets.resolve_left hno
      rw [← Text.ofString_append] at hbrackets
      exact readAs_single hk hbrackets
    refine ⟨⟨fun hread => ?_, readAs_brackets hk⟩, ⟨fun hread hprimary => ?_, hopen⟩⟩
    · by_contra hno
      exact Bool.noConfusion (hread.unique (hopen hno)).1
    · exact Bool.noConfusion (hread.unique (readAs_brackets hk hprimary)).1

/-- An intersection with blanks is put between angles; without them the brackets go to its last
    part. Brackets can follow a path. -/
theorem spellMany_reread_intersection :
    ReadAs (Language.typescript.spellMany "A & B") true "A & B" ∧
    ReadAs (Language.typescript.spellMany "Ns.Item") true "Ns.Item" ∧
    ¬ ReadAs (Language.typescript.spellMany "A&B") true "A&B" ∧
    ReadAs (Language.typescript.spellMany "A&B") false "A&B[]" := by
  have hname {s : String} (h : scanName (Text.ofString s) = some (Text.ofString s).length)
      (hs : Text.ofString s ∉ typeWords.map Text.ofString) : IsPath .typeName (Text.ofString s) :=
    .name h hs
  have hA : IsPath .typeName (Text.ofString "A") := hname (by decide) (by decide)
  have hB : IsPath .typeName (Text.ofString "B") := hname (by decide) (by decide)
  have hblank : Blank (Text.ofString " ") := by decide
  have hwide : Spelt .inside .whole .otherType (Text.ofString "A & B") :=
    .union (.meet (.both (.operand (.primary (.path hA))) hblank.trivia (Or.inl rfl) hblank.trivia
      (.primary (.path hB))))
  have hpath : Spelt .member .primary .nestedTypeName (Text.ofString "Ns.Item") :=
    .path (.member (hname (s := "Ns") (by decide) (by decide)) .nil .nil
      (y := Text.ofString "Item") (by rw [IsName]; decide))
  have hnarrow : Spelt .member .whole .otherType (Text.ofString "A&B") :=
    .union (.meet (.both (.operand (.primary (.path hA))) .nil (Or.inr (by decide)) .nil
      (.primary (.path hB))))
  have hsingle : ¬ ReadAs (Language.typescript.spellMany "A&B") true "A&B" := by
    have hread : (typeIn (fieldSource (Language.typescript.spellMany "A&B"))).map isRepeated =
        some (.ok false) := by decide +kernel
    rintro ⟨-, t, ht, hrepeated, -⟩
    rw [ht, Option.map_some, hrepeated] at hread
    cases hread
  obtain ⟨hsequence, hopen⟩ := (spellMany_reread (by decide) (by decide)).2 (by decide) hnarrow
  refine ⟨?_, ?_, hsingle, hopen.2 fun h => hsingle (hsequence.2 h)⟩
  · exact (spellMany_reread (by decide) (by decide)).1 (by decide) (hwide.readable rfl).takes
  · exact ((spellMany_reread (by decide) (by decide)).2 (by decide) hpath.anywhere).1.2 hpath

end

end Scaffold.Contract
