/-
  How objects and functions are read, and with them all types.

  Properties and parameters start with a name and a colon. Together with the other forms they give
  the main result: **every text that is spelt is read whole** where nothing behind it goes on with
  it (`Spelt.readable`), as one node of its kind.
-/
import Mathlib
import Scaffold.Proofs.TypeLists

namespace Scaffold.Source

open Pattern Grammar

section

variable {e : Ending} {l : Level} {m : Nat} {p q : P} {x y z r g g' u mark : Text} {k : Kind}
  {i first : Item} {items : List Item} {signs ws : List String} {Q : List SyntaxTree → Prop}

/-! ## Names with a colon -/

theorem IsMark.stops (h : IsMark mark) (hg : Trivia g) (u : Text) :
    Stops (mark ++ (g ++ Text.ofString ":" ++ u)) := by
  rcases h with rfl | ⟨a, ha, rfl⟩
  · rw [List.nil_append, List.append_assoc]
    exact hg.stops fun _ => IsSign.stops (by decide) _
  · rw [List.append_assoc]
    exact ha.stops fun _ => IsSign.stops (by decide) _

theorem ends_colon (hg : Trivia g) (u : Text) :
    Ends [".", "[", "?", "<", "("] (g ++ Text.ofString ":" ++ u) := by
  rw [List.append_assoc]
  exact IsSign.ends (by decide) (by decide) hg _

theorem passes_mark (hg : Trivia g) (u : Text) :
    Passes m (opt (sym "?")) (g ++ Text.ofString ":" ++ u) :=
  (ends_colon hg u).passes fun _ hr => ⟨hr "?" (by simp), trivial⟩

theorem IsMark.takes (h : IsMark mark) (hg : Trivia g)
    (hq : Takes 20 q (g ++ Text.ofString ":" ++ u) z Sane) :
    Takes 20 (.seq (opt (sym "?")) q) (mark ++ (g ++ Text.ofString ":" ++ u)) z Sane := by
  rcases h with rfl | ⟨a, ha, rfl⟩
  · refine Takes.after ?_ hq
    rw [List.nil_append, List.append_assoc]
    exact passes_mark hg _
  · exact Takes.seq_sane (.left (takes_sign ha "?" (by decide))) (by simp [Text.ofString]) hq

theorem IsMark.refuses (h : IsMark mark) (hg : Trivia g)
    (hq : Refuses 20 q (g ++ Text.ofString ":" ++ u)) :
    Refuses 20 (.seq (opt (sym "?")) q) (mark ++ (g ++ Text.ofString ":" ++ u)) := by
  rcases h with rfl | ⟨a, ha, rfl⟩
  · exact (passes_mark hg u).refuses_seq hq
  · exact Takes.refuses_seq (.left (takes_sign ha "?" (by decide))) (by simp [Text.ofString]) hq

theorem Item.Fits.labelled (h : i.Fits signs (IsLabel ws)) : ∃ y mark g g',
    i.body = i.before ++ (y ++ (mark ++ (g ++ Text.ofString ":" ++ (g' ++ i.text)))) ∧ IsName y ∧
      y ∉ ws.map Text.ofString ∧ IsMark mark ∧ Trivia g ∧ Trivia g' := by
  obtain ⟨y, mark, g, g', hlabel, hrest⟩ := h.label
  exact ⟨y, mark, g, g', by simp [Item.body, hlabel], hrest⟩

theorem takes_ascribed (hg : Trivia g) (hg' : Trivia g') (hx : IsType e k x) (hz : Closes z) :
    Takes 20 (ascribed e) (g ++ Text.ofString ":" ++ (g' ++ x)) z Sane := by
  have hbody := (hx.behind hg' hz).after_sign (m := 20) .nil ":" (by decide)
  have hnode := hbody.node_last (k := .ascribed) (by decide) hg (IsSign.solid (by decide) _)
  rw [List.append_assoc]
  exact hnode.imp fun ts => sane_of_last fun w hw => hw.whole

theorem Takes.labelled_sane {role : Role} (h : Takes m p x z Sane) :
    Takes m (.labelled role p) x z Sane :=
  h.labelled.imp <| by
    rintro ts ⟨us, hus, rfl⟩ t ht
    obtain ⟨v, hv, rfl⟩ := List.mem_map.1 ht
    split
    · exact hus v hv
    · exact mt SyntaxTree.broken_withRole.1 (hus v hv)

/-! ## Objects -/

/-- A name that is no modifier starts neither a modifier nor another kind of member. -/
theorem member_start (hy : IsName y) (hr : Stops r) (hw : y ∉ memberWords.map Text.ofString) :
    Fails (y ++ r) (.rule .exportStatement) ∧ Fails (y ++ r) constructSignature ∧
      Fails (y ++ r) indexSignature ∧ Fails (y ++ r) (word "abstract") ∧
      Idle (y ++ r) methodWords := by
  have hword {w : String} (h : w ∈ memberWords) : scanWord w (y ++ r) = none :=
    scanWord_of_not_mem hy hr hw (by decide) h
  simp (disch := decide) [RuleFails, constructSignature, indexSignature, methodWords,
    accessModifier, modifier, seqs, alts, opt, sym, word, hword, scanSymbol_of_name hy]

/-- A name and what is behind it, as a property. -/
theorem takes_member (hy : IsName y) (hw : y ∉ memberWords.map Text.ofString) (hg : Trivia g)
    (hr : Stops (r ++ z))
    (hmethod : Refuses 20 (.seq (opt (sym "?"))
      (.seq (continues .member) (.rule (.signature .member)))) (r ++ z))
    (htype : Takes 20 (.seq (opt (sym "?")) (opt (.labelled .type (ascribed .member)))) r z Q) :
    Takes 20 typeMember (g ++ (y ++ r)) z (Last fun w => ∃ o o' ts, Q ts ∧
      w = .node .property none o (y ++ r) (.node .name (some .name) o' y [] :: ts)) := by
  obtain ⟨hexport, hnew, hindex, habstract, hwords⟩ := member_start hy hr hw
  have hsolid : Solid (y ++ r ++ z) := by
    rw [List.append_assoc]
    exact hy.solid _
  have hnext : Next (g ++ (y ++ r) ++ z) (y ++ (r ++ z)) :=
    ⟨g, hg, hy.solid _, by simp only [List.append_assoc]⟩
  have hname : Takes 20 propertyName y (r ++ z) _ :=
    .left (takes_lexeme_here (hy.solid _) (hy.scanName_append hr))
  have hpass {q : P} (h : Idle (y ++ (r ++ z)) q) : Passes 20 q (y ++ r ++ z) := by
    rw [List.append_assoc]
    exact passes_of_idle (.of_solid (hy.solid _)) h
  have hno : Refuses 20 (methodSignature .member) (g ++ (y ++ r) ++ z) := by
    simp only [List.append_assoc]
    exact refuses_node hg (hy.solid _) (Passes.refuses_seq
      (passes_of_idle (.of_solid (hy.solid _)) hwords) (hname.refuses_seq hy.ne_nil hmethod))
  obtain ⟨haccess, hstatic, hoverride, hreadonly, -⟩ := hwords
  have hproperty : Takes 20 propertySignature (g ++ (y ++ r)) z _ :=
    Takes.node (.after (hpass haccess) (.after (hpass hstatic) (.after (hpass hoverride)
      (.after (hpass hreadonly) (hname.labelled.seq hy.ne_nil htype))))) hg hsolid
  refine Takes.imp (.right (refuses_of_fails hnext hexport) (.right (refuses_of_fails hnext hnew)
    (.right (refuses_of_fails hnext hindex) (.left (.after (passes_of_idle hnext habstract)
      (.right hno hproperty)))))) ?_
  rintro ts ⟨cs, w, rfl, hcs, o, us, ⟨_, vs, rfl, ⟨_, ⟨_, rfl, o', rfl⟩, rfl⟩, hvs⟩, rfl⟩
  exact ⟨cs, _, rfl, hcs, o, o', vs, hvs, rfl⟩

theorem not_broken_property {o o' : Nat} {ts : List SyntaxTree} (hts : Sane ts) :
    ¬ (SyntaxTree.node .property none o x (.node .name (some .name) o' y [] :: ts)).Broken := by
  refine (isNode_node (by decide) ?_).whole
  refine List.forall_mem_cons.2 ⟨(isNode_node (by decide) ?_).whole, hts⟩
  simp [Sane]

theorem takes_typeMember (hfit : i.Fits signs (IsLabel memberWords))
    (hx : IsType .member i.kind i.text) (hz : Closes z) : Takes 20 typeMember i.body z Sane := by
  obtain ⟨y, mark, g, g', hbody, hy, hw, hmark, hg, hg'⟩ := hfit.labelled
  rw [hbody]
  refine (takes_member (Q := Sane) hy hw hfit.before ?_ ?_ (hmark.takes hg (.left
    (takes_ascribed hg hg' hx hz).labelled_sane))).imp ?_
  · simpa only [List.append_assoc] using hmark.stops hg (g' ++ i.text ++ z)
  · have hno := hmark.refuses hg ((ends_colon hg (g' ++ i.text ++ z)).refuses_step (m := 20)
      (e := .member) (p := .rule (.signature .member))
      fun r hr => ⟨hr "<" (by simp), hr "(" (by simp)⟩)
    simpa only [List.append_assoc] using hno
  · refine fun ts => sane_of_last ?_
    rintro w ⟨o, o', us, hus, rfl⟩
    exact not_broken_property hus

/-- What stands between two members. -/
def separator : P := alts [sym ",", sym ";", .lineEnd .member]

theorem fails_typeMember (u : Text) : Fails (.scalar '\x7d' :: u) typeMember := by
  have hname : scanName (.scalar '\x7d' :: u) = none := IsSign.lacks_name (by decide) u
  have hnumber : scanNumber (.scalar '\x7d' :: u) = none :=
    scanNumber_eq_none (by decide) (by decide) u
  have hprivate : scanPrivateName (.scalar '\x7d' :: u) = none := by
    simp [scanPrivateName, Text.after?, CodePoint.is]
  simp (disch := decide) [typeMember, RuleFails, constructSignature, indexSignature,
    methodSignature, propertySignature, methodWords, accessModifier, modifier, propertyName,
    computedName, string, stringOf, anyName, number, seqs, alts, opt, sym, word,
    scanSymbol_of_head, scanWord_of_head, hname, hnumber, hprivate]

/-- At the end of an object a line may end, but nothing is read. -/
theorem skipLineEnd_of_blank (hg : Blank g) (u : Text) (b o : Nat) :
    Cursor.skipLineEnd .member b ⟨g ++ .scalar '\x7d' :: u, o⟩ = none ∨
      Cursor.skipLineEnd .member b ⟨g ++ .scalar '\x7d' :: u, o⟩ =
        some ([], ⟨g ++ .scalar '\x7d' :: u, o⟩) := by
  have hcomment : scanComment (.scalar '\x7d' :: u) = none := by
    simp [scanComment, Text.after?, CodePoint.is]
  have hgap : isGap '\x7d' = false := by decide
  cases hends : endsLine .member (g ++ .scalar '\x7d' :: u) with
  | true =>
    right
    cases b <;> simp [Cursor.skipLineEnd, hends]
  | false =>
    left
    cases b with
    | zero => simp [Cursor.skipLineEnd, hends]
    | succ b => simp [Cursor.skipLineEnd, hends, hg.skipGap hgap, hcomment]

theorem next_brace (hg : Trivia g) (u : Text) :
    Next (g ++ .scalar '\x7d' :: u) (.scalar '\x7d' :: u) :=
  ⟨g, hg, IsSign.solid (by decide) u, rfl⟩

theorem refuses_brace (hg : Trivia g) (u : Text) {s : String}
    (hs : (s.toList.head?.any (· != '\x7d')) = true) :
    Refuses m (sym s) (g ++ .scalar '\x7d' :: u) :=
  refuses_of_fails (next_brace hg u) (scanSymbol_of_head u hs)

/-- Behind blanks and before a brace a separator is refused, or reads nothing. -/
theorem run_separator (hg : Blank g) (u : Text) {b d o : Nat}
    (ha : Ample m b d (g ++ .scalar '\x7d' :: u)) :
    run b (grammar.read b d) separator ⟨g ++ .scalar '\x7d' :: u, o⟩ = none ∨
      run b (grammar.read b d) separator ⟨g ++ .scalar '\x7d' :: u, o⟩ =
        some ([], ⟨g ++ .scalar '\x7d' :: u, o⟩) := by
  have hcomma := refuses_brace hg.trivia u (s := ",") (by decide) b d o ha
  have hsemicolon := refuses_brace hg.trivia u (s := ";") (by decide) b d o ha
  simp only [separator, alts, run, hcomma, hsemicolon]
  rcases skipLineEnd_of_blank hg u b o with h | h <;> simp [h]

theorem passes_separator (hg : Blank g) (u : Text) :
    Passes m (opt separator) (g ++ .scalar '\x7d' :: u) := by
  intro b d o ha
  rcases run_separator (o := o) hg u ha with h | h <;> simp only [opt, run, h]

theorem refuses_further (hg : Blank g) (u : Text) :
    Refuses m (.seq separator typeMember) (g ++ .scalar '\x7d' :: u) := by
  have hmember : Refuses m typeMember (g ++ .scalar '\x7d' :: u) :=
    refuses_of_fails (next_brace hg.trivia u) (fails_typeMember u)
  intro b d o ha
  rcases run_separator (o := o) hg u ha with h | h <;> simp only [run, h, hmember b d o ha]

theorem takes_separator (hg : Trivia g) {s : String} (hs : s ∈ [",", ";"]) :
    g ++ Text.ofString s ≠ [] ∧ ∀ t, Closes (g ++ Text.ofString s ++ t) ∧
      Takes m separator (g ++ Text.ofString s) t Sane := by
  simp only [List.mem_cons, List.not_mem_nil, or_false] at hs
  rcases hs with rfl | rfl
  · refine ⟨by simp [Text.ofString], fun t => ⟨?_, .left (takes_sign hg "," (by decide))⟩⟩
    rw [List.append_assoc]
    exact IsSign.closes (by decide) (by decide) hg _
  · refine ⟨by simp [Text.ofString], fun t => ⟨?_, .right ?_
      (.left (takes_sign hg ";" (by decide)))⟩⟩
    · rw [List.append_assoc]
      exact IsSign.closes (by decide) (by decide) hg _
    · rw [List.append_assoc]
      exact refuses_of_fails ⟨g, hg, IsSign.solid (by decide) _, rfl⟩
        (scanSymbol_of_ne (by decide) _ rfl)

theorem takes_closing (hg : Trivia g) :
    Takes m (.alt (sym "|\x7d") (sym "\x7d")) (g ++ Text.ofString "\x7d") z Sane := by
  refine .right ?_ (takes_sign hg "\x7d" (by decide))
  rw [List.append_assoc]
  exact refuses_brace hg z (by decide)

/-- A brace opens what stands behind it, unless a bar does. -/
theorem takes_braces (h : Takes 20 q u z Q) (hopen : ∃ c t, u ++ z = .scalar c :: t ∧ c ≠ '|') :
    Takes m (.seq (.alt (sym "\x7b|") (sym "\x7b")) q) (Text.ofString "\x7b" ++ u) z
      fun ts => ∃ o us, ts = .leaf .token o (Text.ofString "\x7b") :: us ∧ Q us := by
  obtain ⟨c, t, hct, hne⟩ := hopen
  have hbar : Refuses m (sym "\x7b|") (Text.ofString "\x7b" ++ (u ++ z)) := by
    refine refuses_of_fails (.of_solid (IsSign.solid (by decide) _)) ?_
    rw [hct]
    simp [sym, scanSymbol, Text.ofString, Text.after?, CodePoint.is, hne.symm]
  have hbrace : Takes m (sym "\x7b") (Text.ofString "\x7b") (u ++ z) _ :=
    takes_lexeme_here (IsSign.solid (by decide) _) (scanSymbol_append "\x7b" _)
  refine ((Takes.right hbar hbrace).seq (by decide) h).imp ?_
  rintro ts ⟨_, us, rfl, ⟨_, rfl, o, rfl⟩, hus⟩
  exact ⟨o, us, rfl, hus⟩

/-- What stands between braces does not break the object. -/
theorem sane_braces {ts : List SyntaxTree}
    (h : ∃ o us, ts = .leaf .token o (Text.ofString "\x7b") :: us ∧ Sane us) : Sane ts := by
  obtain ⟨o, us, rfl, hus⟩ := h
  exact List.forall_mem_cons.2 ⟨SyntaxTree.not_broken_leaf (by decide) (by decide), hus⟩

theorem takesForm_object (h : Takes 0 objectType (Text.ofString "\x7b" ++ u) z Sane) :
    TakesForm e .objectType (Text.ofString "\x7b" ++ u) z :=
  takes_alts (n := 1) rfl (refuses_signs (by decide) (by decide) (by decide) (by decide) _)
    (h.rule.node_single (by decide) (IsSign.solid (by decide) _))

theorem takesForm_empty (hg : Trivia g) :
    TakesForm e .objectType (Text.ofString "\x7b" ++ (g ++ Text.ofString "\x7d")) z := by
  have hinner : Passes 20 (opt (seqs [opt (.alt (sym ",") (sym ";")), sepBy1 typeMember separator,
      opt separator])) (g ++ Text.ofString "\x7d" ++ z) := by
    rw [List.append_assoc]
    refine passes_opt (refuses_of_fails (next_brace hg z) (Or.inr ⟨⟨⟨?_, ?_⟩, trivial⟩, ?_⟩))
    · exact scanSymbol_of_ne (by decide) z (s := ",") rfl
    · exact scanSymbol_of_ne (by decide) z (s := ";") rfl
    · exact Or.inl (Or.inl (fails_typeMember z))
  refine takesForm_object ((takes_braces (.after hinner (takes_closing hg)) ?_).imp fun _ =>
    sane_braces)
  rw [List.append_assoc]
  exact hg.head (by decide) ⟨'\x7d', z, rfl, by decide⟩

/-- The members of an object, up to its end. -/
theorem takes_members {last : Text}
    (hfits : ∀ i ∈ first :: items, i.Fits [",", ";"] (IsLabel memberWords))
    (hitems : ∀ i ∈ first :: items, IsType .member i.kind i.text) (hlast : Finishes last g) :
    Takes 20 (.seq (sepBy1 typeMember separator) (opt separator)) (listed (first :: items) ++ last)
      (g ++ .scalar '\x7d' :: z) Sane := by
  have hitem : ∀ i ∈ first :: items, i.body ≠ [] ∧
      ∀ t, Closes t → Takes 20 typeMember i.body t Sane := by
    intro i hi
    refine ⟨?_, fun t ht => takes_typeMember (hfits i hi) (hitems i hi) ht⟩
    rw [Item.body, ← List.append_assoc]
    exact (hitems i hi).ne_nil _
  have hsep : ∀ i ∈ items, i.gap ++ Text.ofString i.sign ≠ [] ∧
      ∀ t, Closes (i.gap ++ Text.ofString i.sign ++ t) ∧
        Takes 20 separator (i.gap ++ Text.ofString i.sign) t Sane := fun i hi =>
    takes_separator (hfits i (List.mem_cons_of_mem _ hi)).gap
      (hfits i (List.mem_cons_of_mem _ hi)).sign
  have hbrace : IsSign '\x7d' := by decide
  rcases hlast with ⟨rfl, hg⟩ | ⟨hg, a, s, ha, hs, rfl⟩
  · rw [List.append_nil]
    exact (takes_listed (hbrace.closes (by decide) hg.trivia z) (refuses_further hg z) hsep
      hitem).before (passes_separator hg z)
  · obtain ⟨hne, hsign⟩ := takes_separator (m := 20) ha hs
    obtain ⟨hcloses, hlast⟩ := hsign (g ++ .scalar '\x7d' :: z)
    have hend := hlast.refuses_seq hne (refuses_of_fails (next_brace hg z) (fails_typeMember z))
    exact (takes_listed hcloses hend hsep hitem).seq_sane
      (List.append_ne_nil_of_left_ne_nil (hitem first (by simp)).1 _) (.left hlast)

/-- Members between braces, of which the first one starts with a name. -/
theorem takes_enclosed {a : Text} (ha : Trivia a) (hy : IsName y) (hg : Trivia g)
    (h : Takes 20 (.seq (sepBy1 typeMember separator) (opt separator)) (a ++ (y ++ r))
      (g ++ .scalar '\x7d' :: z) Q) :
    Takes 0 objectType (Text.ofString "\x7b" ++ (a ++ (y ++ r) ++ (g ++ Text.ofString "\x7d"))) z
      fun ts => ∃ o us, ts = .leaf .token o (Text.ofString "\x7b") :: us ∧
        ∃ vs ws, us = vs ++ ws ∧ Q vs ∧ Sane ws := by
  have hstart {t : Text} : a ++ (y ++ r) ++ t = a ++ (y ++ (r ++ t)) := by
    simp only [List.append_assoc]
  have hopt : Takes 20 (opt (seqs [opt (.alt (sym ",") (sym ";")), sepBy1 typeMember separator,
      opt separator])) (a ++ (y ++ r)) (g ++ .scalar '\x7d' :: z) Q := by
    refine .left (.after ?_ h)
    rw [hstart]
    exact passes_of_idle ⟨_, ha, hy.solid _, rfl⟩
      ⟨⟨scanSymbol_of_name hy (by decide), scanSymbol_of_name hy (by decide)⟩, trivial⟩
  have hclose : Takes 20 (.alt (sym "|\x7d") (sym "\x7d")) (g ++ Text.ofString "\x7d") z Sane :=
    takes_closing hg
  refine takes_braces (Takes.seq ?_ (by simp [hy.ne_nil]) hclose) ?_
  · rw [List.append_assoc g]
    exact hopt
  · obtain ⟨c, t, hct, -, hoff⟩ := hy.opens (r ++ (g ++ Text.ofString "\x7d" ++ z))
    rw [List.append_assoc, hstart]
    exact ha.head (by decide) ⟨c, t, hct, fun h => hoff (h ▸ by decide)⟩

theorem takes_object {last : Text}
    (hfits : ∀ i ∈ first :: items, i.Fits [",", ";"] (IsLabel memberWords))
    (hitems : ∀ i ∈ first :: items, IsType .member i.kind i.text) (hlast : Finishes last g) :
    Takes 0 objectType (Text.ofString "\x7b" ++
        (listed (first :: items) ++ (last ++ (g ++ Text.ofString "\x7d")))) z Sane := by
  have hg : Trivia g := hlast.elim (fun h => h.2.trivia) fun h => h.1
  have hmembers := takes_members (z := z) hfits hitems hlast
  obtain ⟨y, mark, a, a', hbody, hy, -, -, -, -⟩ := (hfits first (by simp)).labelled
  -- the first member starts with its name
  have hstart : ∃ r, listed (first :: items) ++ last = first.before ++ (y ++ r) := by
    rw [listed, hbody]
    exact ⟨_, by simp only [List.append_assoc]; rfl⟩
  obtain ⟨r, hr⟩ := hstart
  rw [← List.append_assoc (listed _), hr]
  rw [hr] at hmembers
  refine (takes_enclosed (hfits first (by simp)).before hy hg hmembers).imp fun ts h =>
    sane_braces ?_
  obtain ⟨o, _, rfl, vs, ws, rfl, hvs, hws⟩ := h
  exact ⟨o, _, rfl, List.forall_mem_append.2 ⟨hvs, hws⟩⟩

/-! ## Functions -/

theorem IsMark.ends (h : IsMark mark) (hg : Trivia g) (u : Text) :
    Ends [".", "["] (mark ++ (g ++ Text.ofString ":" ++ u)) := by
  rcases h with rfl | ⟨a, ha, rfl⟩
  · exact (ends_colon hg u).mono (by simp)
  · rw [List.append_assoc]
    exact IsSign.ends (by decide) (by decide) ha _

theorem Closes.lacks_value (h : Closes z) : Passes m (opt (initialValue .inside)) z := by
  obtain ⟨c, t, hnext, hc, -⟩ := h.next
  refine passes_opt (refuses_of_fails hnext (Or.inl (scanSymbol_of_ne ?_ t (s := "=") rfl)))
  rintro rfl
  revert hc
  decide

theorem takes_parameter (hfit : i.Fits signs (IsLabel parameterWords))
    (hx : IsType .inside i.kind i.text) (hz : Closes z) :
    Takes 20 (parameter true) i.body z Sane := by
  obtain ⟨y, mark, g, g', hbody, hy, hw, hmark, hg, hg'⟩ := hfit.labelled
  have hwords {ws : List String} (hsub : (ws.all parameterWords.contains) = true) :
      y ∉ ws.map Text.ofString := by
    refine fun hmem => hw (List.map_subset _ (fun w h => ?_) hmem)
    exact List.contains_iff_mem.1 (List.all_eq_true.1 hsub w h)
  have hopt : Takes 20 (opt (ascribed .inside)) (g ++ Text.ofString ":" ++ (g' ++ i.text)) z Sane :=
    .left (takes_ascribed hg hg' hx hz)
  rw [hbody]
  refine takes_named hy (hwords (by decide)) (hwords (by decide)) hfit.before ?_
    (hmark.takes hg (hopt.before hz.lacks_value))
  simpa only [List.append_assoc] using hmark.ends hg (g' ++ i.text ++ z)

theorem fails_closed (u : Text) : Fails (.scalar ')' :: u) (parameter true) := by
  have hsigns : (["@", "...", "\x7b", "["].all fun s => s.toList.head?.any (· != ')')) = true := by
    decide
  have hwords : (accessWords.all fun w => w.toList.head?.any (· != ')')) = true := by decide
  refine fails_parameter (fun s hs => scanSymbol_of_head u (List.all_eq_true.1 hsigns s hs))
    (fun w hw => scanWord_of_head u (List.all_eq_true.1 hwords w hw)) ?_
  rw [scanNameExcept, IsSign.lacks_name (by decide) u]

theorem takes_parameters (hfits : ∀ i ∈ items, i.Fits [","] (IsLabel parameterWords))
    (hitems : ∀ i ∈ items, IsType .inside i.kind i.text) (hg : Trivia g) :
    Takes 0 (parameters true) (Text.ofString "(" ++ (listed items ++ (g ++ Text.ofString ")"))) z
      Sane := by
  have hclose : Takes 20 (sym ")") (g ++ Text.ofString ")") z Sane := takes_sign hg ")" (by decide)
  refine Takes.after_sign ?_ .nil "(" (by decide)
  cases items with
  | nil =>
    exact .after (passes_opt (refuses_of_fails
      ⟨g, hg, IsSign.solid (by decide) z, List.append_assoc g (Text.ofString ")") z⟩
      (Or.inl (Or.inl (fails_closed z))))) hclose
  | cons first items =>
    have hitem : ∀ i ∈ first :: items, i.body ≠ [] ∧
        ∀ t, Closes t → Takes 20 (parameter true) i.body t Sane := by
      intro i hi
      refine ⟨?_, fun t ht => takes_parameter (hfits i hi) (hitems i hi) ht⟩
      rw [Item.body, ← List.append_assoc]
      exact (hitems i hi).ne_nil _
    have hlist : Takes 20 (commaList (parameter true)) (listed (first :: items))
        (g ++ Text.ofString ")" ++ z) Sane := by
      rw [List.append_assoc]
      exact takes_commaList (by decide) (by decide) hg
        (fun i hi => hfits i (List.mem_cons_of_mem _ hi)) hitem
    exact Takes.seq_sane (.left hlist)
      (List.append_ne_nil_of_left_ne_nil (hitem first (by simp)).1 _) hclose

theorem Behind.ne_word (h : Behind y r) {w : String} (hw : scanWord w (y ++ r) = none) :
    Text.ofString w ≠ y := by
  rintro rfl
  cases h with
  | nil =>
    rw [scanWord, Text.ofString, Text.after?_map] at hw
    cases hw
  | next _ _ hstop _ => simp [scanWord_append hstop] at hw

/-- What follows the first name of a type is no `is`. -/
theorem Behind.refuses_is (h : Behind y r) (hy : y ∉ operatorWords.map Text.ofString)
    (hz : Closes z) : Refuses m (.seq (word "is") q) (r ++ z) := by
  cases h with
  | nil =>
    obtain ⟨c, t, hnext, hc, -⟩ := hz.next
    have hall : (closers.all fun c => "is".toList.head?.any (· != c)) = true := by decide
    exact refuses_of_fails hnext (Or.inl (scanWord_of_head t (List.all_eq_true.1 hall c hc)))
  | @next g c t hg hs _ hc =>
    have hc := hc.resolve_left fun h => hy h.2
    have hall : (['.', '<', '[', '&', '|', 'e'].all fun c =>
        "is".toList.head?.any (· != c)) = true := by
      decide
    obtain ⟨_, _, ⟨⟩, hsolid⟩ := hs
    exact refuses_of_fails ⟨g, hg, ⟨c, t ++ z, rfl, hsolid⟩, List.append_assoc _ _ _⟩
      (Or.inl (scanWord_of_head (t ++ z) (List.all_eq_true.1 hall c hc)))

/-- The type of a result that is no claim on the type of a name. -/
theorem takes_resultType (hx : IsType e k x) (hw : ∀ w ∈ resultWords, scanWord w x = none)
    (hg : Trivia g) (hz : Closes z) : Takes 20 (resultType e) (g ++ x) z Sane := by
  simp only [resultWords, List.forall_mem_cons] at hw
  obtain ⟨hasserts, htypeof, hkeyof, -⟩ := hw
  have hnext : Next (g ++ x ++ z) (x ++ z) := ⟨g, hg, hx.starts.solid z, List.append_assoc _ _ _⟩
  have hword : Fails (x ++ z) (word "asserts") ∧ Refuses 20 (typePredicate e) (g ++ x ++ z) := by
    cases hx.starts with
    | sign hc _ =>
      exact ⟨hc.lacks_word _ (by decide), refuses_of_fails hnext (Or.inl (hc.lacks_name _))⟩
    | @name y r hy _ hr =>
      have hstop := hr.stops hz.stops
      refine ⟨?_, ?_⟩
      · rw [List.append_assoc]
        exact scanWord_of_ne hy hstop (by decide) (hr.ne_word hasserts)
      · have hname : Takes 20 anyName y (r ++ z) Sane :=
          takes_sane (by decide) .nil (hy.solid _) (hy.scanName_append hstop)
        have hop : y ∉ operatorWords.map Text.ofString := by
          simp only [operatorWords, List.map_cons, List.map_nil, List.mem_cons, List.not_mem_nil,
            or_false, not_or]
          exact ⟨(hr.ne_word htypeof).symm, (hr.ne_word hkeyof).symm⟩
        have hno := hname.refuses_seq hy.ne_nil
          (hr.refuses_is (m := 20) (q := .rule (.type e)) hop hz)
        rw [List.append_assoc, List.append_assoc]
        exact refuses_node hg (hy.solid _) hno
  obtain ⟨hword, hpredicate⟩ := hword
  exact .right (refuses_of_fails hnext (Or.inl hword)) (.right hpredicate
    (.after (passes_of_idle hnext hword) (hx.behind hg hz)))

theorem takes_function {g₁ g₂ : Text} (hfits : ∀ i ∈ items, i.Fits [","] (IsLabel parameterWords))
    (hitems : ∀ i ∈ items, IsType .inside i.kind i.text) (hg : Trivia g) (hg₁ : Trivia g₁)
    (hg₂ : Trivia g₂) (hx : IsType e k x) (hw : ∀ w ∈ resultWords, scanWord w x = none)
    (hz : Closes z) :
    Takes 3 (.rule (.typeOperand e))
      (Text.ofString "(" ++ (listed items ++ (g ++ Text.ofString ")" ++
        (g₁ ++ Text.ofString "=>" ++ (g₂ ++ x))))) z
      (Single (IsNode .functionType
        (Text.ofString "(" ++ (listed items ++ (g ++ Text.ofString ")" ++
        (g₁ ++ Text.ofString "=>" ++ (g₂ ++ x))))))) := by
  have hresult := (takes_resultType hx hw hg₂ hz).after_sign (m := 20) hg₁ "=>" (by decide)
  have hparameters {t : Text} : Takes 2 (.rule (.parameters true))
      (Text.ofString "(" ++ (listed items ++ (g ++ Text.ofString ")"))) t Sane :=
    (takes_parameters hfits hitems hg).rule.mono (by decide)
  have hbody := hparameters.seq_sane (by simp [Text.ofString]) hresult
  simp only [List.append_assoc] at hbody ⊢
  generalize listed items ++ (g ++ (Text.ofString ")" ++
    (g₁ ++ (Text.ofString "=>" ++ (g₂ ++ x))))) = v at hbody ⊢
  have hsolid : Solid (Text.ofString "(" ++ v ++ z) := IsSign.solid (by decide) _
  have hangle : Fails (Text.ofString "(" ++ v ++ z) (.rule .typeParameters) :=
    scanSymbol_of_head (v ++ z) (s := "<") (by decide)
  have hword {w : String} (hw : (w.toList.head?.any (· != '(')) = true) :
      Fails (Text.ofString "(" ++ v ++ z) (word w) := scanWord_of_head (v ++ z) hw
  have hform : Takes 2 (functionForm e) (Text.ofString "(" ++ v) z _ :=
    Takes.node_single (.after (passes_of_idle (.of_solid hsolid) ⟨hangle, trivial⟩) hbody)
      (by decide) hsolid
  exact Takes.rule (.right (refuses_of_fails (.of_solid hsolid) (Or.inl (hword (by decide))))
    (.right (refuses_of_fails (.of_solid hsolid) (Or.inr ⟨⟨hword (by decide), trivial⟩,
      Or.inl (hword (by decide))⟩)) (.left hform)))

/-! ## All types -/

/-- The signs that may not follow a type of a level. -/
def Level.ends : Level → List String
  | .primary => [".", "?.", "<", "(", "=>"]
  | .operand | .meet => [".", "?.", "<", "(", "=>", "["]
  | .union => [".", "?.", "<", "(", "=>", "[", "&"]
  | .whole => joiners

/-- A text is read as a type of a level and a kind. -/
def Readable (e : Ending) : Level → Kind → Text → Prop
  | .primary => GrowsTo 1 (alts (primaryForms e)) (bracketStep e) Level.primary.ends
  | .operand => fun k x => ∀ z, Ends Level.operand.ends z →
      Takes 4 (.rule (.intersectionOperand e)) x z (Single (IsNode k x))
  | .meet => GrowsTo 4 (.rule (.intersectionOperand e))
      (intersectionStep e (.rule (.intersectionOperand e))) Level.meet.ends
  | .union => GrowsTo 6 (.rule (.unionOperand e)) (unionStep e (.rule (.unionOperand e)))
      Level.union.ends
  | .whole => IsType e

theorem Readable.of_form (h : ∀ z, Ends Level.primary.ends z → TakesForm e k x z) :
    Readable e .primary k x := Takes.growsTo h

theorem Readable.takes_primary (h : Readable e .primary k x) (hs : Starts l x)
    (hz : Ends Level.operand.ends z) :
    Takes 2 (.rule (.primaryType e)) x z (Single (IsNode k x)) := by
  obtain ⟨i, hi, h⟩ := h
  exact Source.takes_primary (h z (hz.mono (by simp [Level.ends]))) hi
    (hz.mono (by simp [Level.ends])) (hs.solid z)

theorem Readable.takes_unionOperand (h : Readable e .meet k x) (hs : Starts l x)
    (hz : Ends Level.union.ends z) :
    Takes 6 (.rule (.unionOperand e)) x z (Single (IsNode k x)) := by
  obtain ⟨i, hi, h⟩ := h
  exact Source.takes_unionOperand (takes_intersection (h z (hz.mono (by simp [Level.ends]))) hi
    (hz.mono (by simp [Level.ends])) (hs.solid z)) hs

theorem Readable.takes_union (h : Readable e .union k x) (hs : Starts l x)
    (hz : Ends (Level.union.ends ++ ["|"]) z) :
    Takes 7 (.rule (.union e)) x z (Single (IsNode k x)) := by
  obtain ⟨i, hi, h⟩ := h
  exact Source.takes_union (h z (hz.mono (by simp [Level.ends]))) hi
    (hz.mono (by simp [Level.ends])) (hs.solid z)

theorem takesForm_group (hg : Trivia g) (hx : IsType .inside k x) (hg' : Trivia g') :
    TakesForm e .parenthesizedType
      (Text.ofString "(" ++ (g ++ x ++ (g' ++ Text.ofString ")"))) z := by
  have hcloses : Closes (g' ++ Text.ofString ")" ++ z) := by
    rw [List.append_assoc]
    exact IsSign.closes (by decide) (by decide) hg' z
  have hbody := ((hx.behind hg hcloses).seq_sane (hx.ne_nil g)
    (takes_sign hg' ")" (by decide))).after_sign (m := 1) .nil "(" (by decide)
  exact takes_alts (n := 0) rfl (by simp)
    (hbody.node_single (by decide) (IsSign.solid (by decide) _))

/-- The word of a condition is no sign. -/
theorem ends_extends (hg : Trivia g) (hne : g ≠ []) (u : Text) :
    Ends (Level.union.ends ++ ["|"]) (g ++ (Text.ofString "extends" ++ u)) := by
  refine ⟨hg.stops fun h => absurd h hne, _, ⟨g, hg, ⟨'e', _, rfl, by decide, by decide⟩, rfl⟩, ?_⟩
  have hall : ((Level.union.ends ++ ["|"]).all fun s => s.toList.head?.any (· != 'e')) = true := by
    decide
  exact fun s hs => scanSymbol_of_head _ (List.all_eq_true.1 hall s hs)

/-- **Every text that is spelt is read whole.** -/
theorem Spelt.readable (h : Spelt e l k x) (he : inExpression e = false) : Readable e l k x := by
  induction h with
  | path hx => exact .of_form fun z hz => hx.takesForm (hz.mono (by simp [Level.ends]))
  | keyword hw => exact .of_form fun z hz => takesForm_keyword hw hz.stops
  | value hw => exact .of_form fun z hz => takesForm_value hw hz.stops
  | string hq hbody => exact .of_form fun z _ => takesForm_string hq hbody
  | number hne hds =>
    exact .of_form fun z hz => takesForm_number hne hds (hz.mono (by simp [Level.ends]))
  | query hg hne hy hw hsteps =>
    exact .of_form fun z hz => takesForm_query hg hne hy hw hsteps (hz.mono (by simp [Level.ends]))
  | group hg _ _ hg' ih => exact .of_form fun z _ => takesForm_group hg (ih rfl) hg'
  | tuple hfits _ hg ih =>
    exact .of_form fun z _ => takesForm_tuple hg hfits fun i hi => ih i hi rfl
  | empty hg => exact .of_form fun z _ => takesForm_empty hg
  | object hfits _ hlast ih =>
    exact .of_form fun z _ => takesForm_object (takes_object hfits (fun i hi => ih i hi rfl) hlast)
  | generic hx hg hfits _ hg' ih =>
    exact .of_form fun z _ => hx.takesForm_generic hg
      (takes_argumentList hg' hfits fun i hi => ih i hi rfl)
  | array hx hg hj hg' ih =>
    exact (ih he).node hx.starts.ne_nil (by decide) hg (by decide) (by decide) fun z _ =>
      takes_array hg hj hg'
  | lookup hx hg hj hg₁ _ hg₂ ih iht =>
    exact (ih he).node hx.starts.ne_nil (by decide) hg (by decide) (by decide) fun z _ =>
      takes_lookup hg hj hg₁ (iht rfl) hg₂
  | primary hx ih =>
    exact fun z hz => takes_intersectionOperand (takes_operand ((ih he).takes_primary hx.starts hz)
      hx.starts (by simp) hz.stops) hx.starts
  | keyof hg hne hx ih =>
    intro z hz
    have hs := (Spelt.keyof hg hne hx).starts
    exact takes_intersectionOperand (takes_operand (takes_keyof ((ih he).takes_primary hx.starts hz)
      hg hne (hx.starts.solid z) (hz.mono (by simp [Level.ends]))) hs (by simp) hz.stops) hs
  | operand _ ih => exact Takes.growsTo (ih he)
  | both hx hg hj hg' hy ih ihy =>
    exact (ih he).node hx.starts.ne_nil (by decide) hg (by decide) (by decide) fun z hz =>
      takes_both he hg hj hg' (hy.starts.solid z) (ihy he z hz)
  | meet hx ih => exact Takes.growsTo fun z hz => (ih he).takes_unionOperand hx.starts hz
  | either hx hg hj hg' hy ih ihy =>
    exact (ih he).node hx.starts.ne_nil (by decide) hg (by decide) (by decide) fun z hz =>
      takes_either he hg hj hg' hy.starts ((ihy he).takes_unionOperand hy.starts hz)
  | union hx ih =>
    refine ⟨hx.starts.mono (by simp), fun z hz => ?_⟩
    exact takes_type ((ih he).takes_union hx.starts (hz.ends.mono (by simp [joiners, Level.ends])))
      (hz.ends.mono (by simp [joiners])) (hx.starts.solid _)
  | choice hx hg hj hne hg₁ hne₁ h₁ hg₂ hg₃ h₂ hg₄ hg₅ h₃ ih ih₁ ih₂ ih₃ =>
    have hs := (Spelt.choice hx hg hj hne hg₁ hne₁ h₁ hg₂ hg₃ h₂ hg₄ hg₅ h₃).starts
    refine ⟨hs, fun z hz => ?_⟩
    have hstep := takes_choice hg hj hg₁ hne₁ (ih₁ rfl) hg₂ hg₃ (ih₂ rfl) hg₄ hg₅ (ih₃ he) hz
    refine Takes.rule (((ih he).takes_union hx.starts ?_).grows.node hx.starts.ne_nil (by decide)
      hstep |>.takes_once (hs.solid z))
    rw [List.append_assoc]
    exact ends_extends hg hne _
  | function hfits hitems hg hg₁ hg₂ ht hw ih ihx =>
    have hs := (Spelt.function hfits hitems hg hg₁ hg₂ ht hw).starts
    refine ⟨hs, fun z hz => ?_⟩
    exact takes_whole (takes_function hfits (fun i hi => ih i hi rfl) hg hg₁ hg₂ (ihx he) hw hz)
      hs hz

end

end Scaffold.Source
