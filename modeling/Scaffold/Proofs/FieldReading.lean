/-
  How a field is read.

  A source with a single field holds one interface with one property, and where a type is read
  behind the colon, it is the type of that property (`typeIn_fieldSource`).
-/
import Mathlib
import Scaffold.Proofs.TypeReading
import Scaffold.Proofs.Leftmost

namespace Scaffold.Contract

open Source Source.Pattern Source.Grammar

/-! ## Properties -/

/-- A property with a type that has `R`. -/
structure IsField (R : SyntaxTree → Prop) (w : SyntaxTree) : Prop where
  kind : w.kind = .property
  type : ∃ t, memberType w = some t ∧ R t
  whole : ¬ w.Broken

section

variable {R : SyntaxTree → Prop} {m : Nat} {x y z r g g' : Text}

/-- A type with the colon before it. -/
theorem takes_colon (h : Takes 20 (.rule (.type .member)) x z (Single R)) :
    Takes 20 (ascribed .member) (Text.ofString ":" ++ x) z (Single fun w => ∃ o o' t, R t ∧
      w = .node .ascribed none o (Text.ofString ":" ++ x)
        [.leaf .token o' (Text.ofString ":"), t]) := by
  have hsign : Takes 20 (sym ":") (Text.ofString ":") (x ++ z) (Single fun w => ∃ o, w =
      .leaf .token o (Text.ofString ":")) :=
    takes_lexeme_here (IsSign.solid (by decide) _) (scanSymbol_append ":" _)
  refine ((hsign.seq (by decide) h).node_here (IsSign.solid (by decide) _)).imp ?_
  rintro ts ⟨w, rfl, o, us, ⟨_, _, rfl, ⟨_, rfl, o', rfl⟩, t, rfl, ht⟩, rfl⟩
  exact ⟨_, rfl, o, o', t, ht, rfl⟩

theorem takes_field (hR : ∀ t, R t → t.isNamed = true ∧ ¬ t.Broken) (hy : IsName y)
    (hw : y ∉ memberWords.map Text.ofString) (hg : Trivia g)
    (h : Takes 20 (.rule (.type .member)) x z (Single R)) :
    Takes 20 typeMember (g ++ (y ++ (Text.ofString ":" ++ x))) z (Last (IsField R)) := by
  have hstop : Source.Stops (Text.ofString ":" ++ x ++ z) := IsSign.stops (by decide) _
  have hmark : Passes 20 (opt (sym "?")) (Text.ofString ":" ++ x ++ z) := passes_mark .nil (x ++ z)
  have hmethod := hmark.refuses_seq ((ends_colon .nil (x ++ z)).refuses_step (m := 20)
    (e := .member) (p := .rule (.signature .member))
    fun r hr => ⟨hr "<" (by simp), hr "(" (by simp)⟩)
  refine (takes_member hy hw hg hstop hmethod
    (.after hmark (.left (takes_colon h).labelled))).imp ?_
  rintro ts ⟨cs, w, rfl, hcs, o, o', us, ⟨_, ⟨_, rfl, a, b, t, ht, rfl⟩, rfl⟩, rfl⟩
  obtain ⟨hnamed, hwhole⟩ := hR t ht
  refine ⟨cs, _, rfl, hcs, rfl, ⟨t, ?_, ht⟩, not_broken_property ?_⟩
  · have hsign : (SyntaxTree.leaf .token b (Text.ofString ":")).isNamed = false := rfl
    simp [memberType, SyntaxTree.child?, SyntaxTree.children, SyntaxTree.role, SyntaxTree.withRole,
      SyntaxTree.kind, SyntaxTree.namedChildren, hsign, hnamed]
  · have hsane : Sane [.leaf .token b (Text.ofString ":"), t] := by
      refine List.forall_mem_cons.2 ⟨SyntaxTree.not_broken_leaf (by decide) (by decide), ?_⟩
      exact List.forall_mem_singleton.2 hwhole
    exact List.forall_mem_singleton.2 (isNode_node (by decide) hsane).whole

/-! ## Interfaces -/

/-- Trees of which the first property is a field. -/
def HasField (R : SyntaxTree → Prop) (ts : List SyntaxTree) : Prop :=
  Sane ts ∧ ∃ us w vs, ts = us ++ w :: vs ∧ (∀ t ∈ us, t.kind ≠ .property) ∧ IsField R w

theorem hasField_of_last {ts : List SyntaxTree} (h : Last (IsField R) ts) : HasField R ts := by
  refine ⟨sane_of_last (fun w hw => hw.whole) h, ?_⟩
  obtain ⟨cs, w, rfl, hcs, hw⟩ := h
  refine ⟨cs, w, [], rfl, fun t ht => ?_, hw⟩
  rw [(hcs t ht).kind]
  decide

theorem HasField.append {ts vs : List SyntaxTree} (h : HasField R ts) (hvs : Sane vs) :
    HasField R (ts ++ vs) := by
  obtain ⟨hsane, us, w, ws, rfl, hus, hw⟩ := h
  refine ⟨List.forall_mem_append.2 ⟨hsane, hvs⟩, us, w, ws ++ vs, ?_, hus, hw⟩
  rw [List.append_assoc, List.cons_append]

theorem HasField.cons {ts : List SyntaxTree} {t : SyntaxTree} (h : HasField R ts)
    (ht : ¬ t.Broken ∧ t.kind ≠ .property) : HasField R (t :: ts) := by
  obtain ⟨hsane, us, w, vs, rfl, hus, hw⟩ := h
  exact ⟨List.forall_mem_cons.2 ⟨ht.1, hsane⟩, t :: us, w, vs, rfl,
    List.forall_mem_cons.2 ⟨ht.2, hus⟩, hw⟩

/-- A field between braces, with a semicolon behind it. -/
theorem takes_body (hg : Trivia g) (hy : IsName y) (hg' : Trivia g')
    (h : Takes 20 typeMember (g ++ (y ++ r)) (Text.ofString ";" ++ (g' ++ .scalar '\x7d' :: z))
      (Last (IsField R))) :
    Takes 0 objectType (Text.ofString "\x7b" ++
      (g ++ (y ++ (r ++ Text.ofString ";")) ++ (g' ++ Text.ofString "\x7d"))) z (HasField R) := by
  have hsign : Takes 20 separator (Text.ofString ";") (g' ++ .scalar '\x7d' :: z) Sane :=
    ((takes_separator .nil (s := ";") (by simp)).2 _).2
  have hend := hsign.refuses_seq (by decide)
    (refuses_of_fails (next_brace hg' z) (fails_typeMember z))
  have hlast : Takes 20 (opt separator) (Text.ofString ";") (g' ++ .scalar '\x7d' :: z) Sane :=
    .left hsign
  have hmembers := (h.before (passes_many hend)).seq (by simp [hy.ne_nil]) hlast
  rw [List.append_assoc, List.append_assoc] at hmembers
  refine (takes_enclosed hg hy hg' hmembers).imp ?_
  rintro ts ⟨o, _, rfl, _, ws, rfl, ⟨us, vs, rfl, hus, hvs⟩, hws⟩
  exact (((hasField_of_last hus).append hvs).append hws).cons
    ⟨SyntaxTree.not_broken_leaf (by decide) (by decide), Kind.noConfusion⟩

/-- An interface of which the first property is a field. -/
structure IsInterface (R : SyntaxTree → Prop) (w : SyntaxTree) : Prop where
  named : w.isNamed = true
  field : ∃ m, (properties w).head? = some m ∧ IsField R m.2
  whole : ¬ w.Broken

theorem HasField.head? {ts : List SyntaxTree} (h : HasField R ts) (previous : Option SyntaxTree) :
    ∃ m, ((withPrevious previous ts).filter fun m => m.2.kind == .property).head? = some m ∧
      IsField R m.2 := by
  obtain ⟨-, us, w, vs, rfl, hus, hw⟩ := h
  induction us generalizing previous with
  | nil => exact ⟨(previous, w), by simp [withPrevious, hw.kind], hw⟩
  | cons t us ih =>
    obtain ⟨ht, hus⟩ := List.forall_mem_cons.1 hus
    simpa [withPrevious, ht] using ih (some t) hus

/-- An interface that starts with a name and a brace. -/
theorem takes_interface {t : Text} (hx : x = Text.ofString "\x7b" ++ t)
    (h : Takes 0 objectType x z (HasField R)) :
    Takes 2 (.rule .statement)
      (Text.ofString "interface" ++ (Text.ofString " " ++ Text.ofString "X" ++
        (Text.ofString " " ++ x))) z (Single (IsInterface R)) := by
  have hsolid : Solid (x ++ z) := hx ▸ IsSign.solid (by decide) _
  have hblank : Blank (Text.ofString " ") := by decide
  have hname : IsName (Text.ofString "X") := by rw [IsName]; decide
  have hword : IsName (Text.ofString "interface") := by rw [IsName]; decide
  have hstop {t : Text} : Source.Stops (Text.ofString " " ++ t) :=
    ⟨' ', t, rfl, by decide, by decide⟩
  have hbody : Takes 20 (.node .interfaceBody (.rule .objectType)) (Text.ofString " " ++ x) z _ :=
    ((h.rule.node_here hsolid).behind_blank trivial hblank hsolid).mono (by decide)
  have hnext : Next (Text.ofString " " ++ x ++ z) (x ++ z) :=
    ⟨_, hblank.trivia, hsolid, List.append_assoc _ _ _⟩
  have hparameters : Passes 20 (opt (.rule .typeParameters)) (Text.ofString " " ++ x ++ z) :=
    passes_of_idle hnext ⟨hx ▸ scanSymbol_of_head (s := "<") _ (by decide), trivial⟩
  have hparents {q : P} : Passes 20 (opt (.node .otherType (.seq (word "extends") q)))
      (Text.ofString " " ++ x ++ z) :=
    passes_of_idle hnext ⟨Or.inl (hx ▸ scanWord_of_head (w := "extends") _ (by decide)), trivial⟩
  have hlabel : Takes 20 anyTypeName (Text.ofString " " ++ Text.ofString "X")
      (Text.ofString " " ++ x ++ z) _ :=
    (takes_lexeme_here (hname.solid _) (hname.scanName_append hstop)).behind_blank trivial hblank
      (hname.solid _)
  have hinterface : Takes 0 (word "interface") (Text.ofString "interface")
      (Text.ofString " " ++ Text.ofString "X" ++ (Text.ofString " " ++ x) ++ z) _ :=
    takes_lexeme_here (hword.solid _) (scanWord_append hstop)
  have hnode : Takes 0 interfaceDeclaration (Text.ofString "interface" ++ (Text.ofString " " ++
      Text.ofString "X" ++ (Text.ofString " " ++ x))) z _ :=
    (hinterface.seq (by decide) (hlabel.labelled.seq (by decide)
      (.after hparameters (.after hparents hbody.labelled)))).node_here (hword.solid _)
  have hdeclaration : Takes 1 (.rule .declaration) _ z _ := Takes.rule (.left hnode)
  have hexport : Refuses 1 (.rule .exportStatement)
      (Text.ofString "interface" ++ (Text.ofString " " ++ Text.ofString "X" ++
        (Text.ofString " " ++ x)) ++ z) :=
    refuses_of_fails (.of_solid (hword.solid _))
      ⟨scanSymbol_of_name hword (by decide), scanWord_of_ne hword hstop (by decide) (by decide)⟩
  refine (Takes.rule (.right hexport (.left hdeclaration))).imp ?_
  rintro ts ⟨w, rfl, o, us, ⟨_, _, rfl, ⟨_, rfl, o₁, rfl⟩, _, _, rfl, ⟨_, ⟨_, rfl, o₂, rfl⟩, rfl⟩,
    _, ⟨_, rfl, o₃, vs, hvs, rfl⟩, rfl⟩, rfl⟩
  refine ⟨_, rfl, rfl, hvs.head? none, (isNode_node (by decide) ?_).whole⟩
  refine List.forall_mem_cons.2 ⟨SyntaxTree.not_broken_leaf (by decide) (by decide),
    List.forall_mem_cons.2 ⟨(isNode_node (by decide) (by simp [Sane])).whole, ?_⟩⟩
  exact List.forall_mem_singleton.2 (isNode_node (by decide) hvs.1).whole

end

/-! ## Sources -/

/-- A statement with nothing behind it is all that its source holds. -/
theorem children_parse {R : SyntaxTree → Prop} {x e : Text}
    (h : Takes 20 (.rule .statement) x e (Single R)) (hs : Solid (x ++ e)) (hne : x ≠ [])
    (hbang : scanHashBang (x ++ e) = none)
    (he : ∀ b o, ∃ o', Cursor.skipTrivia b ⟨e, o⟩ = ([], ⟨[], o'⟩)) :
    ∃ w, (parse (x ++ e)).children = [w] ∧ R w := by
  obtain ⟨_, hread, w, rfl, hw⟩ := h ((x ++ e).length + 1) (depthFor (x ++ e).length) 0
    ⟨Nat.le_succ _, by rw [depthFor]; omega⟩
  refine ⟨w, ?_, hw⟩
  rw [Nat.zero_add] at hread
  have hmoved : (x.length == 0) = false := beq_eq_false_iff_ne.2 (List.length_pos_of_ne_nil hne).ne'
  have hrest : (x ++ e).isEmpty = false := by simp [hne]
  obtain ⟨o, hend⟩ := he (x ++ e).length x.length
  have hmore : readStatements
      (grammar.read ((x ++ e).length + 1) (depthFor (x ++ e).length) .statement)
      ((x ++ e).length + 1) ⟨e, x.length⟩ = [] := by
    rw [readStatements, hend]
    rfl
  simp only [parse, SyntaxTree.children, Cursor.skipTrivia_of_solid hs, hbang]
  rw [readStatements]
  simp only [run] at hread
  simp only [Cursor.skipTrivia_of_solid hs, hrest, hread, hmoved, hmore]
  rfl

/-- A source with a single field. -/
def fieldSource (type : String) : String := "interface X \x7b\n  f: " ++ type ++ ";\n\x7d\n"

theorem ofString_fieldSource (s : String) : Text.ofString (fieldSource s) =
    Text.ofString "interface" ++ (Text.ofString " " ++ Text.ofString "X" ++ (Text.ofString " " ++
      (Text.ofString "\x7b" ++ (Text.ofString "\n  " ++ (Text.ofString "f" ++ (Text.ofString ":" ++
        (Text.ofString " " ++ Text.ofString s) ++ Text.ofString ";")) ++
          (Text.ofString "\n" ++ Text.ofString "\x7d"))))) ++ Text.ofString "\n" := by
  have hopen : Text.ofString "interface X \x7b\n  f: " = Text.ofString "interface" ++
      (Text.ofString " " ++ (Text.ofString "X" ++ (Text.ofString " " ++ (Text.ofString "\x7b" ++
        (Text.ofString "\n  " ++ (Text.ofString "f" ++
          (Text.ofString ":" ++ Text.ofString " "))))))) := rfl
  have hclose : Text.ofString ";\n\x7d\n" = Text.ofString ";" ++ (Text.ofString "\n" ++
      (Text.ofString "\x7d" ++ Text.ofString "\n")) := rfl
  have hparts : Text.ofString (fieldSource s) = Text.ofString "interface X \x7b\n  f: " ++
      Text.ofString s ++ Text.ofString ";\n\x7d\n" := by
    rw [← Text.ofString_append, ← Text.ofString_append]
    rfl
  rw [hparts, hopen, hclose]
  simp only [List.append_assoc]

/-- **A type is read as that of a field** where it is read behind the colon. -/
theorem typeIn_fieldSource {R : SyntaxTree → Prop} (hR : ∀ t, R t → t.isNamed = true ∧ ¬ t.Broken)
    {s : String} (hs : ∀ z, Solid (Text.ofString s ++ z))
    (h : ∀ z, Closes z → Takes 8 (.rule (.type .member)) (Text.ofString s) z (Single R)) :
    (parse (Text.ofString (fieldSource s))).firstError = none ∧
      ∃ t, typeIn (fieldSource s) = some t ∧ R t := by
  have htype (z : Text) : Takes 20 (.rule (.type .member)) (Text.ofString " " ++ Text.ofString s)
      (Text.ofString ";" ++ z) (Single R) :=
    ((h _ (IsSign.closes (by decide) (by decide) .nil z)).behind_blank trivial (by decide)
      (hs _)).mono (by decide)
  have hname : IsName (Text.ofString "f") := by rw [IsName]; decide
  have hbody := takes_body (z := Text.ofString "\n")
    (Blank.trivia (g := Text.ofString "\n  ") (by decide)) hname
    (Blank.trivia (g := Text.ofString "\n") (by decide))
    (takes_field hR hname (by decide) (Blank.trivia (by decide)) (htype _))
  have hinterface := (takes_interface rfl hbody).mono (show 2 ≤ 20 by decide)
  have hword : IsName (Text.ofString "interface") := by rw [IsName]; decide
  obtain ⟨w, hchildren, hnamed, ⟨m, hm, hfield⟩, hwhole⟩ :=
    children_parse hinterface (hword.solid _)
    (by simp [Text.ofString]) rfl fun b o => ⟨o + 1, by cases b <;> rfl⟩
  rw [← ofString_fieldSource] at hchildren
  obtain ⟨t, ht, hRt⟩ := hfield.type
  refine ⟨?_, t, ?_, hRt⟩
  · rw [SyntaxTree.firstError_eq_none, SyntaxTree.broken_iff, hchildren]
    simp [parse, SyntaxTree.isError, SyntaxTree.kind, hwhole]
  · simp [typeIn, topLevel, hchildren, withPrevious, hnamed, hm, ht]

end Scaffold.Contract
