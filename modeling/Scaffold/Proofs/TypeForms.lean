/-
  How the forms of types are read, lists apart.

  There is a lemma for each form of a type: what its parts take, it takes. What is read as a type
  that brackets can follow is read as a whole type too, unless something behind it goes on with it
  (`takes_operand`, `takes_whole`).
-/
import Mathlib
import Scaffold.Proofs.Parameters

namespace Scaffold.Source

open Pattern Grammar

/-! ## From types that brackets can follow to whole types -/

section

variable {e : Ending} {l : Level} {i m : Nat} {p : P} {x y z g r : Text} {k k' : Kind}
  {Q : List SyntaxTree → Prop} {R : SyntaxTree → Prop}

/-- The alternatives of a type that brackets can follow. -/
def primaryForms (e : Ending) : List P := [
  .node .parenthesizedType (seqs [sym "(", .rule (.type .inside), sym ")"]),
  .node .objectType (.rule .objectType),
  tupleType,
  templateType,
  literalType,
  typeQuery e,
  .node .otherType (.seq (word "keyof") (.rule (.primaryType e))),
  .node .otherType (word "this"),
  .node .otherType (sym "*"),
  .node .otherType (.seq (sym "?") (optionalOperand e)),
  word "const",
  builtinType,
  namedType]

/-- A text is read as one of these alternatives before what stands behind it. -/
def TakesForm (e : Ending) (k : Kind) (x z : Text) : Prop :=
  Takes 1 (alts (primaryForms e)) x z (Single (IsNode k x))

/-- The pattern of function types. -/
def functionForm (e : Ending) : P :=
  .node .functionType (seqs [opt (.rule .typeParameters), .rule (.parameters true), sym "=>",
    resultType e])

/-- Where a sign is not, no sign is that starts with it. -/
theorem scanSymbol_longer {s s' : String} (h : scanSymbol s r = none)
    (hs : s.toList.length = 1 ∧ s'.toList.head? = s.toList.head?) : scanSymbol s' r = none := by
  obtain ⟨c, hc⟩ := List.length_eq_one_iff.1 hs.1
  rw [hc, List.head?_cons, List.head?_eq_some_iff] at hs
  obtain ⟨-, cs, hcs⟩ := hs
  simp only [scanSymbol, Option.map_eq_none_iff, hc, hcs] at h ⊢
  cases r with
  | nil => rfl
  | cons p r => cases hp : p.is c <;> simp_all [Text.after?]

theorem fails_bar (h : scanSymbol "|" r = none) (e : Ending) : Fails r (bar e) := by
  have hlonger {s : String} (hs : s.toList.head? = some '|') : scanSymbol s r = none :=
    scanSymbol_longer h ⟨rfl, hs⟩
  cases e <;> simp (disch := decide) [bar, inExpression, seqs, sym, hlonger]

theorem fails_ampersand (h : scanSymbol "&" r = none) (e : Ending) : Fails r (ampersand e) := by
  have hlonger {s : String} (hs : s.toList.head? = some '&') : scanSymbol s r = none :=
    scanSymbol_longer h ⟨rfl, hs⟩
  cases e <;> simp (disch := decide) [ampersand, inExpression, seqs, sym, hlonger]

theorem takes_primary (h : Grows 1 none (alts (primaryForms e)) (bracketStep e) i x z R)
    (hi : i ≤ x.length) (hz : Ends ["["] z) (hs : Solid (x ++ z)) :
    Takes 2 (.rule (.primaryType e)) x z (Single R) := by
  refine Takes.rule (h.takes hi (hz.refuses_step fun r hr => ?_) hs)
  have hbracket := hr "[" (by simp)
  exact ⟨Or.inl hbracket, Or.inl hbracket⟩

/-- Types below whole types are no functions. -/
theorem Starts.refuses_function (h : Starts l x) (hl : l ≠ .whole) (z : Text) :
    Refuses (m + 1) (functionForm e) (x ++ z) := by
  have hangle : Fails (x ++ z) (.rule .typeParameters) := h.lacks z (s := "<") (by decide)
  have hopt : Passes (m + 1) (opt (.rule .typeParameters)) (x ++ z) :=
    passes_of_idle (.of_solid (h.solid z)) ⟨hangle, trivial⟩
  refine refuses_node (g := []) .nil (h.solid z) (hopt.refuses_seq (refuses_seq ?_))
  have hno (hparen : scanSymbol "(" (x ++ z) = none) :
      Refuses (m + 1) (.rule (.parameters true)) (x ++ z) :=
    refuses_of_fails (.of_solid (h.solid z)) hparen
  cases h with
  | @sign c t hc hparen =>
    by_cases hopen : c = '('
    · subst hopen
      obtain ⟨g, u, hg, hu, rfl⟩ := (hparen rfl).resolve_left hl
      exact hu.refuses hg z
    · exact hno (scanSymbol_of_ne hopen _ rfl)
  | name hy _ _ =>
    rw [List.append_assoc] at hno ⊢
    exact hno (scanSymbol_of_name hy (by decide))

theorem takes_operand (h : Takes 2 (.rule (.primaryType e)) x z Q) (hs : Starts l x)
    (hl : l ≠ .whole) (hz : Stops z) : Takes 3 (.rule (.typeOperand e)) x z Q := by
  have hword := hs.lacks_word hz
  simp only [leadWords, List.forall_mem_cons] at hword
  have hwords : ∀ q ∈ [
      (.node .readonlyType (.seq (word "readonly") (.rule (.type e))) : P),
      .node .constructorType (seqs [opt (word "abstract"), word "new", opt (.rule .typeParameters),
        .rule (.parameters true), sym "=>", .rule (.type e)]),
      .node .otherType (seqs [word "infer", anyTypeName,
        opt (seqs [continues e, word "extends", .rule (.union e)])]),
      importedType e], Refuses 2 q (x ++ z) := by
    intro q hq
    refine refuses_of_fails (.of_solid (hs.solid z)) ?_
    revert q
    simp [importedType, seqs, opt, word, hword]
  simp only [List.forall_mem_cons] at hwords
  obtain ⟨hreadonly, hnew, hinfer, himport, -⟩ := hwords
  exact Takes.rule (.right hreadonly (.right hnew (.right (hs.refuses_function hl z)
    (.right hinfer (.right himport h)))))

theorem takes_intersectionOperand (h : Takes 3 (.rule (.typeOperand e)) x z Q) (hs : Starts l x) :
    Takes 4 (.rule (.intersectionOperand e)) x z Q := by
  have hand := fails_ampersand (hs.lacks z (by decide)) e
  have hbar := fails_bar (hs.lacks z (by decide)) e
  exact Takes.rule (.right (refuses_of_fails (.of_solid (hs.solid z)) (Or.inl hand))
    (.right (refuses_of_fails (.of_solid (hs.solid z)) (Or.inl hbar)) h))

theorem takes_intersection
    (h : Grows 4 none (.rule (.intersectionOperand e))
      (intersectionStep e (.rule (.intersectionOperand e))) i x z R)
    (hi : i ≤ x.length) (hz : Ends ["&"] z) (hs : Solid (x ++ z)) :
    Takes 5 (.rule (.intersection e)) x z (Single R) :=
  Takes.rule (h.takes hi (hz.refuses_step fun _ hr =>
    Or.inl (fails_ampersand (hr "&" (by simp)) e)) hs)

theorem takes_unionOperand (h : Takes 5 (.rule (.intersection e)) x z Q) (hs : Starts l x) :
    Takes 6 (.rule (.unionOperand e)) x z Q := by
  have hbar := fails_bar (hs.lacks z (by decide)) e
  exact Takes.rule (.right (refuses_of_fails (.of_solid (hs.solid z)) (Or.inl hbar)) h)

theorem takes_union
    (h : Grows 6 none (.rule (.unionOperand e)) (unionStep e (.rule (.unionOperand e))) i x z R)
    (hi : i ≤ x.length) (hz : Ends ["|"] z) (hs : Solid (x ++ z)) :
    Takes 7 (.rule (.union e)) x z (Single R) :=
  Takes.rule (h.takes hi (hz.refuses_step fun _ hr => Or.inl (fails_bar (hr "|" (by simp)) e)) hs)

theorem takes_type (h : Takes 7 (.rule (.union e)) x z (Single R)) (hz : Ends ["extends"] z)
    (hs : Solid (x ++ z)) : Takes 8 (.rule (.type e)) x z (Single R) := by
  refine Takes.rule (h.grows.takes (Nat.zero_le _) (hz.refuses_step fun r hr => Or.inl ?_) hs)
  have hnone := hr "extends" (by simp)
  rw [scanSymbol, Option.map_eq_none_iff] at hnone
  simp only [word, Fails, scanWord, hnone]

/-- An operand by itself is a type. -/
theorem takes_whole (h : Takes 3 (.rule (.typeOperand e)) x z (Single R)) (hs : Starts l x)
    (hz : Closes z) : Takes 8 (.rule (.type e)) x z (Single R) := by
  have hmeet := takes_intersection (takes_intersectionOperand h hs).grows (Nat.zero_le _)
    (hz.ends.mono (by simp [joiners])) (hs.solid z)
  have hunion := takes_union (takes_unionOperand hmeet hs).grows (Nat.zero_le _)
    (hz.ends.mono (by simp [joiners])) (hs.solid z)
  exact takes_type hunion (hz.ends.mono (by simp [joiners])) (hs.solid z)

/-! ## References -/

theorem scanNumber_of_name (hy : IsName y) : scanNumber (y ++ z) = none := by
  obtain ⟨c, t, rfl, hc, hd⟩ := hy.exists_head
  refine scanNumber_eq_none hd ?_ _
  rintro rfl
  revert hc
  decide

/-- The words that the alternatives before a reference start with. -/
def formWords : List (List String) :=
  [[], [], [], [], valueWords, ["typeof"], ["keyof"], ["this"], [], [], ["const"],
   "unique" :: plainWords]

theorem refuses_form (hy : IsName y) (hz : Stops z) {q : P} {ws : List String}
    (hq : (primaryForms e)[i]? = some q) (hws : formWords[i]? = some ws)
    (hw : ∀ w ∈ ws, Text.ofString w ≠ y) : Refuses m q (y ++ z) := by
  have hall : (formWords.all fun ws => ws.all fun w => w.toList.all isNameChar) = true := by decide
  have hword {w : String} (h : ws.contains w = true) : scanWord w (y ++ z) = none := by
    have hchars := List.all_eq_true.1 hall ws (List.mem_of_getElem? hws)
    have hmem := List.contains_iff_mem.1 h
    exact scanWord_of_ne hy hz (List.all_eq_true.1 hchars w hmem) (hw w hmem)
  have hi : i < 12 := (List.getElem?_eq_some_iff.1 hws).1
  refine refuses_of_fails (.of_solid (hy.solid z)) ?_
  interval_cases i <;> cases hq <;> cases hws <;>
    simp (disch := decide) [RuleFails, tupleType, templateType, literalType, typeQuery, builtinType,
      seqs, alts, words, sym, word, string, stringOf, number, hword, scanNumber_of_name hy,
      scanSymbol_of_name hy]

theorem mem_take_of_getElem? {α : Type} {as : List α} {a : α} {n : Nat} (h : as[i]? = some a)
    (hi : i < n) : a ∈ as.take n :=
  List.mem_iff_getElem?.2 ⟨i, by rw [List.getElem?_take, if_pos hi, h]⟩

theorem refuses_take {ps : List P} {n : Nat} {s : Text}
    (h : ∀ i < n, ∀ q, ps[i]? = some q → Refuses m q s) : ∀ q ∈ ps.take n, Refuses m q s := by
  intro q hq
  obtain ⟨i, hi⟩ := List.mem_iff_getElem?.1 hq
  rw [List.getElem?_take] at hi
  split at hi
  · next hlt => exact h i hlt q hi
  · cases hi

/-- A name is taken by none of the alternatives that start with a sign or another word. -/
theorem refuses_forms (hy : IsName y) (hz : Stops z) {n : Nat} (hn : n ≤ 12)
    (hw : ∀ ws ∈ formWords.take n, ∀ w ∈ ws, Text.ofString w ≠ y) :
    ∀ q ∈ (primaryForms e).take n, Refuses m q (y ++ z) := by
  refine refuses_take fun i hi q hq => ?_
  have hlen : formWords.length = 12 := rfl
  obtain ⟨ws, hws⟩ : ∃ ws, formWords[i]? = some ws := ⟨_, List.getElem?_eq_getElem (by omega)⟩
  exact refuses_form hy hz hq hws (hw ws (mem_take_of_getElem? hws hi))

/-- The step from a path to a name in it. -/
def pathStep : P := .node .nestedTypeName (.seq (sym ".") anyTypeName)

/-- The first name of a path. -/
def pathStart : P := .lexeme .typeName (scanNameExcept typeWords)

/-- The pattern of paths. -/
def pathPattern : P := .grow true anyKind none pathStart pathStep

theorem IsPath.head (h : IsPath k x) : ∃ y r, x = y ++ r ∧ IsName y ∧
    y ∉ typeWords.map Text.ofString ∧ (r = [] ∨ Stops r) := by
  induction h with
  | @name y hy hw => exact ⟨y, [], by simp, hy, hw, Or.inl rfl⟩
  | @member k x g g' y _ hg _ _ ih =>
    obtain ⟨first, rest, rfl, hfirst, hw, hrest⟩ := ih
    have hdot : Stops (g ++ (Text.ofString "." ++ (g' ++ y))) :=
      hg.stops fun _ => IsSign.stops (by decide) _
    refine ⟨first, _, List.append_assoc _ _ _, hfirst, hw, Or.inr ?_⟩
    rcases hrest with rfl | ⟨c, t, rfl, hc⟩
    · exact hdot
    · exact ⟨c, _, rfl, hc⟩

theorem IsPath.grows (h : IsPath k x) : GrowsTo 0 pathStart pathStep [] k x := by
  induction h with
  | @name y hy hw =>
    refine Takes.growsTo fun z hz => ?_
    refine (takes_lexeme_here (hy.solid z) (scanNameExcept_append hy hz.stops hw)).imp ?_
    rintro _ ⟨_, rfl, o, rfl⟩
    exact ⟨_, rfl, isNode_leaf (by decide) o y⟩
  | @member k x g g' y hx hg hg' hy ih =>
    have hname {z : Text} (hz : Stops z) : Takes 20 anyTypeName (g' ++ y) z Sane :=
      takes_sane (by decide) hg' (hy.solid z) (hy.scanName_append hz)
    exact ih.node hx.starts.ne_nil (by decide) hg (by decide) (by simp) fun z hz =>
      ((hname hz.stops).after_sign .nil "." (by decide)).node_last (by decide) hg
        (IsSign.solid (by decide) _)

theorem IsPath.takes (h : IsPath k x) (hz : Ends ["."] z) :
    Takes 0 pathPattern x z (Single (IsNode k x)) := by
  obtain ⟨i, hi, hgrows⟩ := h.grows
  exact (hgrows z (hz.mono (by simp))).takes hi (hz.refuses fun r hr => Or.inl (hr "." (by simp)))
    (h.starts.solid z)

/-- A reference is the last of the alternatives. -/
theorem takes_reference (hx : IsPath k x) (hstop : Stops (y ++ z))
    (h : Takes 0 namedType (x ++ y) z Q) : Takes 1 (alts (primaryForms e)) (x ++ y) z Q := by
  refine takes_alts (n := 12) rfl ?_ (h.mono (by decide))
  obtain ⟨first, rest, rfl, hfirst, hw, hrest⟩ := hx.head
  have hstop : Stops (rest ++ (y ++ z)) := by
    rcases hrest with rfl | ⟨c, t, rfl, hc⟩
    · exact hstop
    · exact ⟨c, _, rfl, hc⟩
  have hall : (formWords.all fun ws => ws.all fun w => typeWords.contains w) = true := by decide
  rw [List.append_assoc, List.append_assoc]
  refine refuses_forms hfirst hstop (by decide) fun ws hws w hmem he => hw ?_
  have hwords := List.all_eq_true.1 hall ws (List.mem_of_mem_take hws)
  exact he ▸ List.mem_map_of_mem (List.contains_iff_mem.1 (List.all_eq_true.1 hwords w hmem))

/-- A path without arguments. -/
theorem IsPath.takesForm (hx : IsPath k x) (hz : Ends [".", "<"] z) : TakesForm e k x z := by
  have hpath := hx.takes (hz.mono (by simp))
  have hnamed : Takes 0 namedType (x ++ []) z (Single (IsNode k x)) := by
    rw [List.append_nil]
    exact hpath.grows.takes (Nat.zero_le _) (hz.refuses fun r hr => hr "<" (by simp))
      (hx.starts.solid z)
  have htakes := takes_reference (e := e) (y := []) hx hz.stops hnamed
  rwa [List.append_nil] at htakes

/-- The arguments of a type. -/
def argumentStep : P := .node .genericType (.labelled .typeArguments (.rule .typeArguments))

/-- The list of the arguments of a type. -/
def argumentList : P := seqs [sym "<", commaList (.rule (.type .inside)), sym ">"]

theorem takes_argumentStep (h : Takes 0 argumentList y z Q) (hg : Trivia g) (hs : Solid (y ++ z)) :
    Takes 20 argumentStep (g ++ y) z
      (Last fun w => ∃ o o' cs, Q cs ∧ w = .node .genericType none o y
        [.node .typeArguments (some .typeArguments) o' y cs]) := by
  have harguments : Takes 1 (.rule .typeArguments) y z _ := (h.node_here hs).rule
  refine ((harguments.labelled.node hg hs).mono (by decide)).imp ?_
  rintro ts ⟨cs, w, rfl, hcs, o, us, ⟨vs, ⟨v, rfl, o', ws, hws, rfl⟩, rfl⟩, rfl⟩
  exact ⟨cs, _, rfl, hcs, o, o', ws, hws, rfl⟩

/-- A path with arguments. -/
theorem IsPath.takesForm_generic (hx : IsPath k x) (hg : Trivia g)
    (h : Takes 0 argumentList (.scalar '<' :: y) z Sane) :
    TakesForm e .genericType (x ++ (g ++ .scalar '<' :: y)) z := by
  have hangle : IsSign '<' := by decide
  have hends : Ends ["."] (g ++ .scalar '<' :: y ++ z) := by
    rw [List.append_assoc]
    exact hangle.ends (by decide) hg _
  have hstep := (takes_argumentStep h hg (hangle.solid _)).imp
    (R := Last (IsNode .genericType (.scalar '<' :: y))) <| by
      rintro ts ⟨cs, w, rfl, hcs, o, o', us, hus, rfl⟩
      exact ⟨cs, _, rfl, hcs, isNode_node (by decide) <| by
        intro t ht
        rw [List.mem_singleton.1 ht]
        exact (isNode_node (by decide) hus).whole⟩
  have hgrows : Grows 0 (some .name) pathPattern argumentStep _ _ z _ :=
    (hx.takes hends).grows.node hx.starts.ne_nil (by decide) hstep
  refine takes_reference hx hends.stops (hgrows.takes_once ?_)
  rw [List.append_assoc]
  exact hx.starts.solid _

/-! ## Words -/

theorem takes_words {ws : List String} {w : String} (hw : w ∈ ws)
    (hws : ∀ v ∈ ws, v.toList.all isNameChar = true) (hname : IsName (Text.ofString w))
    (hz : Stops z) : Takes m (words ws) (Text.ofString w) z Sane := by
  induction ws with
  | nil => cases hw
  | cons v ws ih =>
    obtain ⟨hv, hws⟩ := List.forall_mem_cons.1 hws
    by_cases heq : w = v
    · subst heq
      exact takes_alts (n := 0) rfl (by simp) (takes_word .nil (hname.solid z) hz)
    · have hmore := ih ((List.mem_cons.1 hw).resolve_left heq) hws
      have hrefuse : Refuses m (word v) (Text.ofString w ++ z) :=
        refuses_of_fails (.of_solid (hname.solid z)) (scanWord_of_ne hname hz hv fun he =>
          heq (Text.ofString_injective he).symm)
      cases ws with
      | nil => simp [heq] at hw
      | cons u ws => exact .right hrefuse hmore

/-- A word that is a type. -/
theorem takesForm_keyword {w : String} (hw : w ∈ plainWords) (hz : Stops z) :
    TakesForm e .otherType (Text.ofString w) z := by
  have hname := isName_word (List.mem_append_left _ hw)
  have hne {v : String} (hv : plainWords.contains v = false) :
      Text.ofString v ≠ Text.ofString w := by
    intro he
    simp [Text.ofString_injective he, hw] at hv
  have hwords := takes_words (m := 1) hw (List.all_eq_true.1 (by decide)) hname hz
  have hunique : Refuses 1 (.seq (word "unique") (word "symbol")) (Text.ofString w ++ z) :=
    refuses_of_fails (.of_solid (hname.solid z))
      (Or.inl (scanWord_of_ne hname hz (by decide) (hne (by decide))))
  refine takes_alts (n := 11) rfl (refuses_forms hname hz (by decide) ?_)
    ((Takes.right hunique hwords).node_single (by decide) (hname.solid z))
  have hown : ((formWords.take 11).all fun ws => ws.all fun v => !plainWords.contains v)
      = true := by
    decide
  intro ws hws v hv
  exact hne (by simpa using List.all_eq_true.1 (List.all_eq_true.1 hown ws hws) v hv)

/-- A word that is a type with one value. -/
theorem takesForm_value {w : String} (hw : w ∈ valueWords) (hz : Stops z) :
    TakesForm e .literalType (Text.ofString w) z := by
  have hname := isName_word (List.mem_append_right _ hw)
  have hwords := takes_words (m := 1) hw (List.all_eq_true.1 (by decide)) hname hz
  have hsigns : ∀ q ∈ [string, number, .seq (.alt (sym "-") (sym "+")) number],
      Refuses 1 q (Text.ofString w ++ z) := by
    intro q hq
    refine refuses_of_fails (.of_solid (hname.solid z)) ?_
    revert q
    simp (disch := decide) [string, stringOf, number, seqs, sym, scanNumber_of_name hname,
      scanSymbol_of_name hname]
  simp only [List.forall_mem_cons] at hsigns
  obtain ⟨hstring, hnumber, hsigned, -⟩ := hsigns
  have hliteral : Takes 1 literalType (Text.ofString w) z _ :=
    (Takes.right hstring (.right hnumber (.right hsigned hwords))).node_single (by decide)
      (hname.solid z)
  refine takes_alts (n := 4) rfl (refuses_forms hname hz (by decide) ?_) hliteral
  simp [formWords]

/-- An operator in front of what it is applied to. -/
theorem takes_keyof (h : Takes 2 (.rule (.primaryType e)) x z (Single (IsNode k x)))
    (hg : Trivia g) (hne : g ≠ []) (hs : Solid (x ++ z)) (hz : Ends ["["] z) :
    Takes 2 (.rule (.primaryType e)) (Text.ofString "keyof" ++ (g ++ x)) z
      (Single (IsNode .otherType (Text.ofString "keyof" ++ (g ++ x)))) := by
  have hname : IsName (Text.ofString "keyof") := by rw [IsName]; decide
  have hstop : Stops (g ++ x ++ z) := by
    rw [List.append_assoc]
    exact hg.stops fun h => absurd h hne
  have hsolid := hname.solid (g ++ x ++ z)
  have hword : Takes 1 (word "keyof") (Text.ofString "keyof") (g ++ x ++ z) Sane :=
    takes_word .nil hsolid hstop
  have hoperand : Takes 20 (.rule (.primaryType e)) (g ++ x) z Sane :=
    (h.behind_sane trivial hg hs).mono (by decide)
  rw [← List.append_assoc] at hsolid
  refine takes_primary (Takes.grows (takes_alts (n := 6) rfl ?_
    ((hword.seq_sane (by decide) hoperand).node_single (by decide) hsolid)))
    (Nat.zero_le _) hz hsolid
  rw [List.append_assoc]
  exact refuses_forms hname hstop (by decide) (by decide)

/-! ## Strings and numbers -/

/-- The signs that the first alternatives start with. -/
def formSigns : List Char := ['(', '\x7b', '[', Char.ofNat 96]

theorem refuses_signed {c d : Char} (hgap : isGap c = false) (hslash : c ≠ '/') {q : P}
    (hq : (primaryForms e)[i]? = some q) (hd : formSigns[i]? = some d) (hne : c ≠ d) (t : Text) :
    Refuses m q (.scalar c :: t) := by
  have hlacks {s : String} (hs : s.toList.head? = some d) : scanSymbol s (.scalar c :: t) = none :=
    scanSymbol_of_ne hne t hs
  have hi : i < 4 := (List.getElem?_eq_some_iff.1 hd).1
  refine refuses_of_fails (.of_solid ⟨c, t, rfl, hgap, hslash⟩) ?_
  interval_cases i <;> cases hq <;> cases hd <;>
    simp (disch := decide) [RuleFails, tupleType, templateType, seqs, sym, hlacks]

/-- A sign is taken by none of the alternatives that start with another one. -/
theorem refuses_signs {c : Char} (hgap : isGap c = false) (hslash : c ≠ '/') {n : Nat} (hn : n ≤ 4)
    (hc : c ∉ formSigns.take n) (t : Text) :
    ∀ q ∈ (primaryForms e).take n, Refuses m q (.scalar c :: t) := by
  refine refuses_take fun i hi q hq => ?_
  have hlen : formSigns.length = 4 := rfl
  obtain ⟨d, hd⟩ : ∃ d, formSigns[i]? = some d := ⟨_, List.getElem?_eq_getElem (by omega)⟩
  refine refuses_signed hgap hslash hq hd ?_ t
  rintro rfl
  exact hc (mem_take_of_getElem? hd hi)

theorem Takes.sane (h : Takes m (.node k p) x z (Single (IsNode k x))) :
    Takes m (.node k p) x z Sane :=
  h.imp <| by
    rintro _ ⟨w, rfl, hw⟩ t ht
    rw [List.mem_singleton.1 ht]
    exact hw.whole

theorem takes_glued {scan : Scan} (hk : k.Sound) (h : scan (y ++ z) = some y.length) :
    Takes m (.glued k scan) y z Sane := by
  intro b d o _
  refine ⟨[.leaf k o y], by simp [run, h, Cursor.advance], fun t ht => ?_⟩
  rw [List.mem_singleton.1 ht]
  exact SyntaxTree.not_broken_leaf hk.1 hk.2

/-- A string without escapes. -/
theorem takes_stringOf {quote : String} {q : Char} (hquote : quote.toList = [q])
    (hq : IsSign q) {body : Text}
    (hbody : ∀ p ∈ body,
      p.satisfies (fun c => c == q || c == '\\' || c == '\r' || c == '\n') false = false) :
    Takes m (stringOf quote q) (.scalar q :: (body ++ [.scalar q])) z Sane := by
  have hmark : Text.ofString quote = [.scalar q] := by rw [Text.ofString, hquote]; rfl
  have hopen : Takes m (sym quote) [.scalar q] (body ++ [.scalar q] ++ z) Sane := by
    have h := takes_sign (m := m) (z := body ++ [.scalar q] ++ z) .nil quote (by simp [hquote, hq])
    rwa [hmark] at h
  have hend : Takes 20 (gluedSym quote) [.scalar q] z Sane := by
    refine takes_glued (by decide) ?_
    have h := scanSymbol_append quote z
    rw [hmark] at h
    rw [h, ← String.length_toList, hquote]
    rfl
  have hstop : Refuses 20 (.alt (.glued .fragment (scanFragment q)) (.glued .escape scanEscape))
      (.scalar q :: z) := by
    intro b d o _
    have hescape : scanEscape (.scalar q :: z) = none := by
      cases z with
      | nil => rfl
      | cons p z => simp [scanEscape, CodePoint.is, hq.2.2.2.symm]
    simp [run, scanFragment, countUntil, CodePoint.satisfies, hescape]
  refine hopen.seq_sane (by simp) ?_
  cases body with
  | nil => exact .after (passes_many hstop) hend
  | cons p body =>
    have hfragment : Takes 20 (.glued .fragment (scanFragment q)) (p :: body)
        (.scalar q :: z) Sane := by
      refine takes_glued (by decide) ?_
      rw [scanFragment, countUntil_append hbody (by simp)]
      rfl
    have hpieces := repeats_cons (x := []) (Takes.left hfragment) (by simp) (repeats_nil hstop)
    rw [List.append_nil] at hpieces
    exact hpieces.takes.seq_sane (by simp) hend

theorem takesForm_string {q : Char} (hq : q ∈ ['"', '\'']) {body : Text}
    (hbody : ∀ p ∈ body,
      p.satisfies (fun c => c == q || c == '\\' || c == '\r' || c == '\n') false = false) :
    TakesForm e .literalType (.scalar q :: (body ++ [.scalar q])) z := by
  have hsign : IsSign q := by
    simp only [List.mem_cons, List.not_mem_nil, or_false] at hq
    rcases hq with rfl | rfl <;> decide
  have hsolid : Solid (.scalar q :: (body ++ [.scalar q]) ++ z) := hsign.solid _
  have hstring : Takes 1 string (.scalar q :: (body ++ [.scalar q])) z Sane := by
    refine Takes.sane (Takes.node_single ?_ (by decide) hsolid)
    simp only [List.mem_cons, List.not_mem_nil, or_false] at hq
    rcases hq with rfl | rfl
    · exact .left (takes_stringOf rfl hsign hbody)
    · refine .right (refuses_of_fails (.of_solid hsolid) ?_) (takes_stringOf rfl hsign hbody)
      exact Or.inl (scanSymbol_of_ne (by decide) _ (s := "\"") rfl)
  refine takes_alts (n := 4) rfl (refuses_signs hsign.1 hsign.2.1 (by decide) ?_ _)
    (Takes.node_single (.left hstring) (by decide) hsolid)
  have hall : (['"', '\''].all fun q => !(formSigns.take 4).contains q) = true := by decide
  simpa using List.all_eq_true.1 hall q hq

theorem digitRun_append {ds : List Char} (hds : ∀ c ∈ ds, Text.isAsciiDigit c = true) {b : Bool}
    (hz : Stops z) : digitRun Text.isAsciiDigit b (ds.map .scalar ++ z) = ds.length := by
  induction ds generalizing b with
  | nil =>
    obtain ⟨c, t, rfl, hc, -⟩ := hz
    have hdigit : Text.isAsciiDigit c = false := by
      by_contra h
      rw [Bool.not_eq_false] at h
      rw [isNameChar_of_isAsciiDigit h] at hc
      cases hc
    have hline : c ≠ '_' := by
      rintro rfl
      revert hc
      decide
    simp [digitRun, CodePoint.satisfies, CodePoint.is, hdigit, hline.symm]
  | cons d ds ih =>
    obtain ⟨hd, hds⟩ := List.forall_mem_cons.1 hds
    simp [digitRun, CodePoint.satisfies, hd, ih hds]

/-- Digits are a number wherever no point follows. -/
theorem scanNumber_append {ds : List Char} (hne : ds ≠ [])
    (hds : ∀ c ∈ ds, Text.isAsciiDigit c = true) (hz : Stops z)
    (hdot : ∃ c t, z = .scalar c :: t ∧ c ≠ '.') :
    scanNumber (ds.map .scalar ++ z) = some (ds.map CodePoint.scalar).length := by
  have hrun : decimalRun (ds.map .scalar ++ z) = ds.length := digitRun_append hds hz
  obtain ⟨c, t, rfl, hc, hb⟩ := hz
  obtain ⟨_, _, ⟨⟩, hdot⟩ := hdot
  have hletter {a : Char} (ha : isNameChar a = true) : a ≠ c := by
    rintro rfl
    simp [hc] at ha
  -- the second character is a digit or no character of a name, and so no mark of a base
  have hbased {marks : List Char}
      (hmarks : (marks.all fun a => isNameChar a && !Text.isAsciiDigit a) = true)
      (test : Char → Bool) : scanBased marks test (ds.map .scalar ++ .scalar c :: t) = none := by
    simp only [List.all_eq_true, Bool.and_eq_true, Bool.not_eq_true'] at hmarks
    obtain ⟨d, ds, rfl⟩ := List.exists_cons_of_ne_nil hne
    obtain ⟨-, hds⟩ := List.forall_mem_cons.1 hds
    cases ds with
    | nil =>
      have hnone : (marks.any fun a => (CodePoint.scalar c).is a) = false := by
        rw [List.any_eq_false]
        intro a ha
        simp [CodePoint.is, hletter (hmarks a ha).1]
      simp [scanBased, hnone]
    | cons d' ds =>
      have hnone : (marks.any fun a => (CodePoint.scalar d').is a) = false := by
        rw [List.any_eq_false]
        intro a ha
        have hne : a ≠ d' := by
          rintro rfl
          simp [(hmarks a ha).2] at hds
        simp [CodePoint.is, hne]
      simp [scanBased, hnone]
  have hdecimal : scanDecimal (ds.map .scalar ++ .scalar c :: t) = some ds.length := by
    simp [scanDecimal, hrun, CodePoint.is, exponentRun, hdot.symm, hne,
      hletter (a := 'n') (by decide), hletter (a := 'e') (by decide),
      hletter (a := 'E') (by decide)]
  rw [scanNumber, hbased (by decide), hbased (by decide), hbased (by decide), hdecimal,
    List.length_map]
  rfl

theorem takesForm_number {ds : List Char} (hne : ds ≠ [])
    (hds : ∀ c ∈ ds, Text.isAsciiDigit c = true) (hz : Ends ["."] z) :
    TakesForm e .literalType (ds.map .scalar) z := by
  have hdot : ∃ c t, z = .scalar c :: t ∧ c ≠ '.' := by
    obtain ⟨r, ⟨g, hg, ⟨c, t, rfl, -⟩, rfl⟩, hr⟩ := hz.next
    refine hg.head (by decide) ⟨c, t, rfl, ?_⟩
    rintro rfl
    simpa [scanSymbol, Text.after?, CodePoint.is] using hr "." (by simp)
  have hscan := scanNumber_append hne hds hz.stops hdot
  obtain ⟨d, ds, rfl⟩ := List.exists_cons_of_ne_nil hne
  have hd : IsStart d := Or.inr (hds d (by simp))
  have hslash : d ≠ '/' := fun h => hd.off (h ▸ by decide)
  have hsolid : Solid ((d :: ds).map .scalar ++ z) := ⟨d, _, rfl, hd.isGap, hslash⟩
  have hother {c : Char} (hc : Text.isAsciiDigit c = false) : d ≠ c := by
    rintro rfl
    simp [hc] at hds
  have hstring : Refuses 1 string ((d :: ds).map .scalar ++ z) := by
    refine refuses_of_fails (.of_solid hsolid) ⟨Or.inl ?_, Or.inl ?_⟩
    · exact scanSymbol_of_ne (hother (by decide)) _ (s := "\"") rfl
    · exact scanSymbol_of_ne (hother (by decide)) _ (s := "'") rfl
  have hnumber : Takes 1 number ((d :: ds).map .scalar) z Sane :=
    takes_sane (by decide) .nil hsolid hscan
  refine takes_alts (n := 4) rfl (refuses_signs hd.isGap hslash (by decide) ?_ _)
    (Takes.node_single (.right hstring (.left hnumber)) (by decide) hsolid)
  have hall : ((formSigns.take 4).all fun c => !Text.isAsciiDigit c) = true := by decide
  intro hm
  exact hother (by simpa using List.all_eq_true.1 hall d hm) rfl

/-! ## Brackets and operators -/

theorem Joint.passes {c : Char} (h : Joint e g)
    (hc : isGap c = false ∧ c ≠ '/' ∧ c.toNat ≠ 0 ∧ c ≠ '\x7d') (t : Text) :
    Passes m (continues e) (g ++ .scalar c :: t) := by
  rcases h with rfl | h
  · exact passes_inside _
  · exact passes_continues h hc t

/-- A type goes on behind a joint with a sign or a word. -/
theorem Joint.takes {c : Char} {t : Text} (h : Joint e g)
    (hc : isGap c = false ∧ c ≠ '/' ∧ c.toNat ≠ 0 ∧ c ≠ '\x7d')
    (hp : Takes m p (g ++ .scalar c :: t) z Q) :
    Takes m (.seq (continues e) p) (g ++ .scalar c :: t) z Q := by
  refine Takes.after ?_ hp
  rw [List.append_assoc]
  exact h.passes hc _

theorem takes_array (hg : Trivia g) (hj : Joint e g) {g' : Text} (hg' : Trivia g') :
    Takes 20 (bracketStep e) (g ++ (Text.ofString "[" ++ (g' ++ Text.ofString "]"))) z
      (Last (IsNode .arrayType (Text.ofString "[" ++ (g' ++ Text.ofString "]")))) := by
  have hbody := (takes_sign (z := z) hg' "]" (by decide)).after_sign (m := 20) .nil "[" (by decide)
  exact hj.takes (by decide)
    (Takes.left (hbody.node_last (by decide) hg (IsSign.solid (by decide) _)))

/-- A text is read as a type, whatever sign closes it. -/
def ReadsType (e : Ending) (k : Kind) (x : Text) : Prop :=
  ∀ z, Closes z → Takes 8 (.rule (.type e)) x z (Single (IsNode k x))

/-- A text that starts as a type and is read as one. -/
structure IsType (e : Ending) (k : Kind) (t : Text) : Prop where
  starts : Starts .whole t
  takes : ReadsType e k t

theorem IsType.ne_nil {t : Text} (h : IsType e k t) (g : Text) : g ++ t ≠ [] :=
  List.append_ne_nil_of_right_ne_nil _ h.starts.ne_nil

/-- A type behind blanks and comments. -/
theorem IsType.behind {t : Text} (h : IsType e k t) (hg : Trivia g) (hz : Closes z) :
    Takes 20 (.rule (.type e)) (g ++ t) z Sane :=
  ((h.takes z hz).behind_sane trivial hg (h.starts.solid z)).mono (by decide)

theorem takes_lookup (hg : Trivia g) (hj : Joint e g) {g₁ t g₂ : Text} (hg₁ : Trivia g₁)
    (ht : IsType .inside k t) (hg₂ : Trivia g₂) :
    Takes 20 (bracketStep e)
      (g ++ (Text.ofString "[" ++ (g₁ ++ t ++ (g₂ ++ Text.ofString "]")))) z
      (Last (IsNode .otherType (Text.ofString "[" ++ (g₁ ++ t ++ (g₂ ++ Text.ofString "]"))))) := by
  have hcloses : Closes (g₂ ++ Text.ofString "]" ++ z) := by
    rw [List.append_assoc]
    exact IsSign.closes (by decide) (by decide) hg₂ z
  have hbody := ((ht.behind hg₁ hcloses).seq_sane (ht.ne_nil g₁)
    (takes_sign hg₂ "]" (by decide))).after_sign (m := 20) .nil "[" (by decide)
  -- the bracket is not closed at once, so this is no array
  have hopen {t : Text} : Takes 20 (sym "[") (Text.ofString "[") t Sane :=
    takes_sign .nil "[" (by decide)
  have hno : Refuses 20 (.node .arrayType (seqs [sym "[", sym "]"]))
      (g ++ (Text.ofString "[" ++ (g₁ ++ t ++ (g₂ ++ Text.ofString "]"))) ++ z) := by
    rw [List.append_assoc, List.append_assoc, List.append_assoc, List.append_assoc]
    refine refuses_node hg (IsSign.solid (by decide) _) (hopen.refuses_seq (by decide) ?_)
    exact refuses_of_fails ⟨g₁, hg₁, ht.starts.solid _, rfl⟩ (ht.starts.lacks _ (by decide))
  exact hj.takes (by decide) (Takes.right hno (hbody.node_last (by decide) hg
    (IsSign.solid (by decide) _)))

theorem takes_both (he : inExpression e = false) (hg : Trivia g) (hj : Joint e g) {g' : Text}
    (hg' : Trivia g') (hs : Solid (y ++ z))
    (hy : Takes 4 (.rule (.intersectionOperand e)) y z (Single (IsNode k y))) :
    Takes 20 (intersectionStep e (.rule (.intersectionOperand e)))
      (g ++ (Text.ofString "&" ++ (g' ++ y))) z
      (Last (IsNode .otherType (Text.ofString "&" ++ (g' ++ y)))) := by
  have hsign : Takes 20 (ampersand e) (Text.ofString "&") (g' ++ y ++ z) Sane := by
    simp only [ampersand, he]
    exact .after (fun _ _ _ _ => rfl) (takes_sign .nil "&" (by decide))
  have hoperand := (hy.behind_sane trivial hg' hs).mono (show 4 ≤ 20 by decide)
  exact hj.takes (by decide) ((hsign.seq_sane (by decide) hoperand).node_last (by decide) hg
    (IsSign.solid (by decide) _))

theorem takes_either (he : inExpression e = false) (hg : Trivia g) (hj : Joint e g) {g' : Text}
    (hg' : Trivia g') (hs : Starts l y)
    (hy : Takes 6 (.rule (.unionOperand e)) y z (Single (IsNode k y))) :
    Takes 20 (unionStep e (.rule (.unionOperand e))) (g ++ (Text.ofString "|" ++ (g' ++ y))) z
      (Last (IsNode .unionType (Text.ofString "|" ++ (g' ++ y)))) := by
  have hsign : Takes 20 (bar e) (Text.ofString "|") (g' ++ y ++ z) Sane := by
    simp only [bar, he]
    refine .after ?_ (.after (fun _ _ _ _ => rfl) (takes_sign .nil "|" (by decide)))
    -- the bar does not close an object
    obtain ⟨c, t, hct, hne⟩ : ∃ c t, g' ++ y ++ z = .scalar c :: t ∧ c ≠ '\x7d' := by
      obtain ⟨c, t, rfl, -, hoff⟩ := hs.opens
      rw [List.append_assoc]
      exact hg'.head (by decide) ⟨c, t ++ z, rfl, fun h => hoff (h ▸ by decide)⟩
    refine passes_of_idle (.of_solid (IsSign.solid (by decide) _)) ?_
    rw [hct]
    simp [sym, scanSymbol, Text.ofString, Text.after?, CodePoint.is, hne.symm]
  have hoperand := (hy.behind_sane trivial hg' (hs.solid z)).mono (show 6 ≤ 20 by decide)
  exact hj.takes (by decide) ((hsign.seq_sane (by decide) hoperand).node_last (by decide) hg
    (IsSign.solid (by decide) _))

theorem takes_choice {g₁ t₁ g₂ g₃ t₂ g₄ g₅ t₃ : Text} {k₁ k₂ k₃ : Kind} (hg : Trivia g)
    (hj : Joint e g) (hg₁ : Trivia g₁) (hne : g₁ ≠ []) (h₁ : IsType .inside k₁ t₁) (hg₂ : Trivia g₂)
    (hg₃ : Trivia g₃) (h₂ : IsType .inside k₂ t₂) (hg₄ : Trivia g₄) (hg₅ : Trivia g₅)
    (h₃ : IsType e k₃ t₃) (hz : Closes z) :
    Takes 20 (conditionalStep e)
      (g ++ (Text.ofString "extends" ++ (g₁ ++ t₁ ++ (g₂ ++ Text.ofString "?" ++
          (g₃ ++ t₂ ++ (g₄ ++ Text.ofString ":" ++ (g₅ ++ t₃))))))) z
      (Last (IsNode .otherType (Text.ofString "extends" ++ (g₁ ++ t₁ ++ (g₂ ++ Text.ofString "?" ++
          (g₃ ++ t₂ ++ (g₄ ++ Text.ofString ":" ++ (g₅ ++ t₃)))))))) := by
  have hname : IsName (Text.ofString "extends") := by rw [IsName]; decide
  have hcolon {t u : Text} : Closes (g₄ ++ Text.ofString ":" ++ t ++ u) := by
    simp only [List.append_assoc]
    exact IsSign.closes (by decide) (by decide) hg₄ _
  -- the type behind the question does not start with a point
  have hquestion {t u : Text} : Closes (g₂ ++ Text.ofString "?" ++ (g₃ ++ t₂ ++ t) ++ u) := by
    simp only [List.append_assoc]
    refine ⟨hg₂.stops fun _ => IsSign.stops (by decide) _, '?', _,
      ⟨g₂, hg₂, IsSign.solid (by decide) _, rfl⟩, by decide, fun _ => ?_⟩
    obtain ⟨c, t', rfl, -, hoff⟩ := h₂.starts.opens
    obtain ⟨a, v, hav, ha⟩ := hg₃.head (z := .scalar c :: (t' ++ (t ++ u))) (d := '.') (by decide)
      ⟨c, _, rfl, fun h => hoff (h ▸ by decide)⟩
    show scanSymbol "." (g₃ ++ .scalar c :: (t' ++ (t ++ u))) = none
    rw [hav]
    exact scanSymbol_of_ne ha v rfl
  have hword {t u : Text} :
      Takes 20 (word "extends") (Text.ofString "extends") (g₁ ++ t₁ ++ t ++ u) Sane := by
    refine takes_word .nil (hname.solid _) ?_
    simp only [List.append_assoc]
    exact hg₁.stops fun h => absurd h hne
  have hno := (h₃.behind hg₅ hz).after_sign (m := 20) hg₄ ":" (by decide)
  have hyes := ((h₂.behind hg₃ hcolon).seq_sane (h₂.ne_nil _) hno).after_sign
    (m := 20) hg₂ "?" (by decide)
  have hbody := hword.seq_sane (by decide)
    ((h₁.behind hg₁ hquestion).seq_sane (h₁.ne_nil _) hyes)
  refine hj.takes (by decide) (hbody.node_last (by decide) hg ?_)
  rw [List.append_assoc]
  exact hname.solid _

end

end Scaffold.Source
