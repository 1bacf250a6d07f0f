/-
  How the lists in types are read: arguments, tuples and the steps of queries.
-/
import Mathlib
import Scaffold.Proofs.TypeForms

namespace Scaffold.Source

open Pattern Grammar

section

variable {e : Ending} {l : Level} {m : Nat} {p q sep : P} {x y z g r : Text} {k k' : Kind}
  {i first : Item} {items : List Item} {signs : List String} {Label : Text → Prop}

/-! ## Lists -/

/-- Items that are taken one after the other. -/
theorem repeats_units {C : Text → Prop} (hz : C z) (hend : Refuses 20 p z)
    (hitem : ∀ i ∈ items, i.unit ≠ [] ∧ ∀ t, C t → C (i.unit ++ t) ∧ Takes 20 p i.unit t Sane) :
    C (items.flatMap Item.unit ++ z) ∧ Repeats p (items.flatMap Item.unit) z := by
  induction items with
  | nil => exact ⟨hz, repeats_nil hend⟩
  | cons i items ih =>
    obtain ⟨⟨hne, hi⟩, hitems⟩ := List.forall_mem_cons.1 hitem
    obtain ⟨hrest, hrepeats⟩ := ih hitems
    obtain ⟨hC, htakes⟩ := hi _ hrest
    rw [List.flatMap_cons]
    exact ⟨by rwa [List.append_assoc], repeats_cons htakes hne hrepeats⟩

/-- Items with a sign between two of them. -/
theorem takes_listed {C : Text → Prop} (hz : C z) (hend : Refuses 20 (.seq sep q) z)
    (hsep : ∀ i ∈ items, i.gap ++ Text.ofString i.sign ≠ [] ∧
      ∀ t, C (i.gap ++ Text.ofString i.sign ++ t) ∧
        Takes 20 sep (i.gap ++ Text.ofString i.sign) t Sane)
    (hitem : ∀ i ∈ first :: items, i.body ≠ [] ∧ ∀ t, C t → Takes 20 q i.body t Sane) :
    Takes 20 (sepBy1 q sep) (listed (first :: items)) z Sane := by
  obtain ⟨⟨hne, hfirst⟩, hitem⟩ := List.forall_mem_cons.1 hitem
  have hunit : ∀ i ∈ items, i.unit ≠ [] ∧
      ∀ t, C t → C (i.unit ++ t) ∧ Takes 20 (.seq sep q) i.unit t Sane := by
    intro i hi
    obtain ⟨hbody, htakes⟩ := hitem i hi
    obtain ⟨hsign, hsep⟩ := hsep i hi
    refine ⟨List.append_ne_nil_of_right_ne_nil _ hbody, fun t ht => ?_⟩
    obtain ⟨hC, hsep⟩ := hsep (i.body ++ t)
    exact ⟨by rwa [Item.unit, List.append_assoc], hsep.seq_sane hsign (htakes t ht)⟩
  obtain ⟨hC, hrepeats⟩ := repeats_units hz hend hunit
  exact (hfirst _ hC).seq_sane hne hrepeats.takes

theorem Item.Fits.comma (h : i.Fits [","] Label) : i.gap ++ Text.ofString i.sign ≠ [] ∧
    ∀ t, Closes (i.gap ++ Text.ofString i.sign ++ t) ∧
      Takes 20 (sym ",") (i.gap ++ Text.ofString i.sign) t Sane := by
  rw [List.mem_singleton.1 h.sign]
  refine ⟨by simp [Text.ofString], fun t => ⟨?_, takes_sign h.gap "," (by decide)⟩⟩
  rw [List.append_assoc]
  exact IsSign.closes (by decide) (by decide) h.gap _

theorem Item.Fits.bare (h : i.Fits signs Bare) : i.body = i.before ++ i.text := by
  rw [Item.body, show i.label = [] from h.label, List.nil_append]

/-- Items between commas, up to the sign that closes the list. -/
theorem takes_commaList {c : Char} (hc : IsSign c) (hcloses : c ∈ closers ∧ c ≠ '?' ∧ c ≠ ',')
    (hg : Trivia g) (hfits : ∀ i ∈ items, i.Fits [","] Label)
    (hitem : ∀ i ∈ first :: items, i.body ≠ [] ∧ ∀ t, Closes t → Takes 20 q i.body t Sane) :
    Takes 20 (commaList q) (listed (first :: items)) (g ++ .scalar c :: z) Sane := by
  have hcomma : Fails (.scalar c :: z) (sym ",") := scanSymbol_of_ne hcloses.2.2 z rfl
  have hnext : Next (g ++ .scalar c :: z) (.scalar c :: z) := ⟨g, hg, hc.solid z, rfl⟩
  refine (takes_listed (hc.closes ⟨hcloses.1, hcloses.2.1⟩ hg z)
    (refuses_of_fails hnext (Or.inl hcomma)) (fun i hi => (hfits i hi).comma) hitem).before ?_
  exact passes_of_idle hnext ⟨hcomma, trivial⟩

/-! ## Arguments -/

theorem takes_argumentList (hg : Trivia g) (hfits : ∀ i ∈ first :: items, i.Fits [","] Bare)
    (hitems : ∀ i ∈ first :: items, IsType .inside i.kind i.text) :
    Takes 0 argumentList
      (Text.ofString "<" ++ (listed (first :: items) ++ (g ++ Text.ofString ">"))) z Sane := by
  have hitem : ∀ i ∈ first :: items, i.body ≠ [] ∧
      ∀ t, Closes t → Takes 20 (.rule (.type .inside)) i.body t Sane := by
    intro i hi
    rw [(hfits i hi).bare]
    exact ⟨(hitems i hi).ne_nil _, fun t ht => (hitems i hi).behind (hfits i hi).before ht⟩
  have hlist : Takes 20 (commaList (.rule (.type .inside))) (listed (first :: items))
      (g ++ Text.ofString ">" ++ z) Sane := by
    rw [List.append_assoc]
    exact takes_commaList (by decide) (by decide) hg
      (fun i hi => hfits i (List.mem_cons_of_mem _ hi)) hitem
  have hne : listed (first :: items) ≠ [] :=
    List.append_ne_nil_of_left_ne_nil (hitem first (by simp)).1 _
  exact (hlist.seq_sane hne (takes_sign hg ">" (by decide))).after_sign .nil "<" (by decide)

/-! ## Tuples -/

/-- Neither a colon nor a question follows the first name of a type. -/
theorem Behind.ends (h : Behind y r) (hz : Ends [":", "?"] z) : Ends [":", "?"] (r ++ z) := by
  cases h with
  | nil => exact hz
  | @next g c t hg hs hstop hc =>
    have hne {d : Char} (hoff : d ∈ offSigns) (hd : d ∉ ['.', '<', '[', '&', '|', 'e']) :
        c ≠ d := by
      rintro rfl
      rcases hc with hc | hc
      · exact hc.1 hoff
      · exact hd hc
    obtain ⟨_, _, ⟨⟩, hsolid⟩ := hs
    refine ⟨(Behind.next hg ⟨c, t, rfl, hsolid⟩ hstop hc).stops hz.stops, .scalar c :: (t ++ z),
      ⟨g, hg, ⟨c, _, rfl, hsolid⟩, List.append_assoc _ _ _⟩, ?_⟩
    have hcolon : scanSymbol ":" (.scalar c :: (t ++ z)) = none :=
      scanSymbol_of_ne (hne (by decide) (by decide)) _ rfl
    have hask : scanSymbol "?" (.scalar c :: (t ++ z)) = none :=
      scanSymbol_of_ne (hne (by decide) (by decide)) _ rfl
    simp [hcolon, hask]

/-- A position of a tuple without a name. -/
theorem takes_tupleItem (hx : IsType .inside k x) (hg : Trivia g) (hz : Closes z)
    (hend : Ends [":", "?"] z) : Takes 20 tupleItem (g ++ x) z Sane := by
  have hnext : Next (g ++ x ++ z) (x ++ z) := ⟨g, hg, hx.starts.solid z, List.append_assoc _ _ _⟩
  have hdots : Fails (x ++ z) (sym "...") := hx.starts.lacks z (by decide)
  have hlabel : Refuses 20 (seqs [opt (sym "..."), anyName, opt (sym "?"), sym ":",
      .rule (.type .inside)]) (g ++ x ++ z) := by
    have hpass := passes_of_idle (m := 20) (p := opt (sym "...")) hnext ⟨hdots, trivial⟩
    refine hpass.refuses_seq ?_
    cases hx.starts with
    | sign hc _ => exact refuses_of_fails hnext (Or.inl (hc.lacks_name _))
    | @name y r hy _ hr =>
      have hname : Takes 20 anyName (g ++ y) (r ++ z) Sane :=
        takes_sane (by decide) hg (hy.solid _) (hy.scanName_append (hr.stops hend.stops))
      have hrest := (hr.ends hend).refuses (m := 20) (p := seqs [opt (sym "?"), sym ":",
        .rule (.type .inside)]) fun s hs => Or.inr ⟨⟨hs "?" (by simp), trivial⟩,
          Or.inl (hs ":" (by simp))⟩
      have h := hname.refuses_seq (List.append_ne_nil_of_right_ne_nil _ hy.ne_nil) hrest
      rwa [List.append_assoc, ← List.append_assoc y, ← List.append_assoc] at h
  refine .right hlabel (.right (refuses_of_fails hnext (Or.inl hdots))
    ((hx.behind hg hz).before ?_))
  exact hend.passes fun s hs => ⟨hs "?" (by simp), trivial⟩

theorem takesForm_tuple (hg : Trivia g) (hfits : ∀ i ∈ first :: items, i.Fits [","] Bare)
    (hitems : ∀ i ∈ first :: items, IsType .inside i.kind i.text) :
    TakesForm e .otherType
      (Text.ofString "[" ++ (listed (first :: items) ++ (g ++ Text.ofString "]"))) z := by
  have hitem : ∀ i ∈ first :: items, i.body ≠ [] ∧
      ∀ t, Closes t ∧ Ends [":", "?"] t → Takes 20 tupleItem i.body t Sane := by
    intro i hi
    rw [(hfits i hi).bare]
    exact ⟨(hitems i hi).ne_nil _,
      fun t ht => takes_tupleItem (hitems i hi) (hfits i hi).before ht.1 ht.2⟩
  have hsep : ∀ i ∈ items, i.gap ++ Text.ofString i.sign ≠ [] ∧
      ∀ t, (Closes (i.gap ++ Text.ofString i.sign ++ t) ∧
        Ends [":", "?"] (i.gap ++ Text.ofString i.sign ++ t)) ∧
        Takes 20 (sym ",") (i.gap ++ Text.ofString i.sign) t Sane := by
    intro i hi
    have hfit := hfits i (List.mem_cons_of_mem _ hi)
    obtain ⟨hne, hcomma⟩ := hfit.comma
    refine ⟨hne, fun t => ⟨⟨(hcomma t).1, ?_⟩, (hcomma t).2⟩⟩
    rw [List.mem_singleton.1 hfit.sign, List.append_assoc]
    exact IsSign.ends (by decide) (by decide) hfit.gap _
  have hbracket : IsSign ']' := by decide
  have hnext : Next (g ++ Text.ofString "]" ++ z) (.scalar ']' :: z) :=
    ⟨g, hg, hbracket.solid z, List.append_assoc _ _ _⟩
  have hcomma : Fails (.scalar ']' :: z) (sym ",") := scanSymbol_of_ne (by decide) z rfl
  have hlist : Takes 20 (sepBy1 tupleItem (sym ",")) (listed (first :: items))
      (g ++ Text.ofString "]" ++ z) Sane := by
    refine takes_listed (C := fun t => Closes t ∧ Ends [":", "?"] t) ?_
      (refuses_of_fails hnext (Or.inl hcomma)) hsep hitem
    rw [List.append_assoc]
    exact ⟨hbracket.closes (by decide) hg z, hbracket.ends (by decide) hg z⟩
  have hne : listed (first :: items) ≠ [] :=
    List.append_ne_nil_of_left_ne_nil (hitem first (by simp)).1 _
  have hclose : Takes 20 (.seq (opt (sym ",")) (sym "]")) (g ++ Text.ofString "]") z Sane :=
    .after (passes_of_idle hnext ⟨hcomma, trivial⟩) (takes_sign hg "]" (by decide))
  have hbody : Takes 1 (seqs [sym "[", opt (sepBy1 tupleItem (sym ",")), opt (sym ","), sym "]"])
      (Text.ofString "[" ++ (listed (first :: items) ++ (g ++ Text.ofString "]"))) z Sane :=
    (Takes.seq_sane (.left hlist) hne hclose).after_sign .nil "[" (by decide)
  exact takes_alts (n := 2) rfl (refuses_signs (by decide) (by decide) (by decide) (by decide) _)
    (hbody.node_single (by decide) (IsSign.solid (by decide) _))

/-! ## Queries -/

/-- The steps from a value to a member of it. -/
theorem repeats_steps (hsteps : ∀ i ∈ items, i.Fits ["."] Bare ∧ Joint e i.gap ∧ IsName i.text)
    (hz : Ends [".", "?.", "("] z) :
    Stops (items.flatMap Item.unit ++ z) ∧
      Repeats (.seq (continues e) (.alt (.seq (.alt (sym ".") (sym "?."))
        (.alt anyName (.lexeme .name scanPrivateName))) (.rule .arguments)))
        (items.flatMap Item.unit) z := by
  refine repeats_units hz.stops (hz.refuses_step fun r hr => ⟨Or.inl ⟨hr "." (by simp),
    hr "?." (by simp)⟩, hr "(" (by simp)⟩) fun i hi => ?_
  obtain ⟨hfit, hjoint, hname⟩ := hsteps i hi
  have hunit : i.unit = i.gap ++ Text.ofString "." ++ (i.before ++ i.text) := by
    rw [Item.unit, hfit.bare, List.mem_singleton.1 hfit.sign]
  rw [hunit]
  refine ⟨by simp [Text.ofString], fun t ht => ⟨?_, ?_⟩⟩
  · rw [List.append_assoc, List.append_assoc]
    exact hfit.gap.stops fun _ => IsSign.stops (by decide) _
  · have hmember : Takes 20 (.alt anyName (.lexeme .name scanPrivateName))
        (i.before ++ i.text) t Sane :=
      .left (takes_sane (by decide) hfit.before (hname.solid t) (hname.scanName_append ht))
    have hdot : Takes 20 (.alt (sym ".") (sym "?.")) (i.gap ++ Text.ofString ".")
        (i.before ++ i.text ++ t) Sane := .left (takes_sign hfit.gap "." (by decide))
    refine .after ?_ (.left (hdot.seq_sane (by simp [Text.ofString]) hmember))
    rw [List.append_assoc, List.append_assoc]
    exact hjoint.passes (by decide) _

theorem takesForm_query (hg : Trivia g) (hne : g ≠ []) (hy : IsName y)
    (hw : y ∉ ["import", "this"].map Text.ofString)
    (hsteps : ∀ i ∈ items, i.Fits ["."] Bare ∧ Joint e i.gap ∧ IsName i.text)
    (hz : Ends [".", "?.", "<", "("] z) :
    TakesForm e .otherType (Text.ofString "typeof" ++ (g ++ y ++ items.flatMap Item.unit)) z := by
  have hname : IsName (Text.ofString "typeof") := by rw [IsName]; decide
  obtain ⟨hstops, hrepeats⟩ := repeats_steps hsteps (hz.mono (by simp))
  have hroot : Takes 20 (.alt (.seq (word "import") (.rule .arguments))
      (.alt (word "this") (.lexeme .name (scanNameExcept ["import", "this"])))) (g ++ y)
      (items.flatMap Item.unit ++ z) Sane := by
    have hnext : Next (g ++ y ++ (items.flatMap Item.unit ++ z))
        (y ++ (items.flatMap Item.unit ++ z)) :=
      ⟨g, hg, hy.solid _, List.append_assoc _ _ _⟩
    have hword {w : String} (hw' : w ∈ ["import", "this"]) (hall : w.toList.all isNameChar = true) :
        Fails (y ++ (items.flatMap Item.unit ++ z)) (word w) :=
      scanWord_of_ne hy hstops hall fun he => hw (he ▸ List.mem_map_of_mem hw')
    exact .right (refuses_of_fails hnext (Or.inl (hword (by simp) (by decide))))
      (.right (refuses_of_fails hnext (hword (by simp) (by decide)))
        (takes_sane (by decide) hg (hy.solid _) (scanNameExcept_append hy hstops hw)))
  have hsolid := hname.solid (g ++ y ++ items.flatMap Item.unit ++ z)
  have hstop : Stops (g ++ y ++ items.flatMap Item.unit ++ z) := by
    simp only [List.append_assoc]
    exact hg.stops fun h => absurd h hne
  have hword : Takes 1 (word "typeof") (Text.ofString "typeof")
      (g ++ y ++ items.flatMap Item.unit ++ z) Sane := takes_word .nil hsolid hstop
  have harguments : Passes 20 (opt (.seq (continues e) (.rule .typeArguments))) z :=
    passes_opt (hz.refuses_step fun r hr => hr "<" (by simp))
  have hbody := hword.seq_sane (by decide) (hroot.seq_sane
    (List.append_ne_nil_of_right_ne_nil _ hy.ne_nil) (hrepeats.takes.before harguments))
  rw [← List.append_assoc] at hsolid
  refine takes_alts (n := 5) rfl ?_ (hbody.node_single (by decide) hsolid)
  rw [List.append_assoc]
  exact refuses_forms hname hstop (by decide) (by decide)

end

end Scaffold.Source
