/-
  Where parameters are read in parentheses, and where not.

  A parenthesis opens the parameters of a function or stands around a type. What is `Grouped` is
  taken for no list of parameters (`Grouped.refuses`), whatever stands behind the parentheses.
-/
import Mathlib
import Scaffold.Proofs.TypeTexts

namespace Scaffold.Source

open Pattern Grammar

section

variable {m : Nat} {x y z r g u : Text}

/-- Where one of these words is not, it is not read. -/
theorem scanWord_of_not_mem {ws : List String} (hy : IsName y) (hz : Stops z)
    (hy' : y ∉ ws.map Text.ofString) (hws : (ws.all fun w => w.toList.all isNameChar) = true)
    {w : String} (hw : w ∈ ws) : scanWord w (y ++ z) = none :=
  scanWord_of_ne hy hz (List.all_eq_true.1 hws w hw) fun he => hy' (he ▸ List.mem_map_of_mem hw)

/-- Nothing is read as a parameter that starts with no sign, word or name of one. -/
theorem fails_parameter (hsigns : ∀ s ∈ ["@", "...", "\x7b", "["], scanSymbol s r = none)
    (hwords : ∀ w ∈ accessWords, scanWord w r = none)
    (hname : scanNameExcept (bindingWords true) r = none) : Fails r (parameter true) := by
  simp only [accessWords, List.forall_mem_cons, List.not_mem_nil, false_implies, implies_true,
    and_true] at hsigns hwords
  simp [parameter, RuleFails, parameterModifier, words, seqs, alts, opt, word, hsigns, hwords,
    hname]

/-- A name that is no modifier starts a parameter. -/
theorem parameter_start (hy : IsName y) (hr : Stops r) (hw : y ∉ accessWords.map Text.ofString) :
    Idle (y ++ r) (seqs [.many (.rule .decorator),
      opt (.seq (words ["public", "private", "protected"])
        (.ahead (alts [anyName, sym "\x7b", sym "["]))),
      opt (parameterModifier "override"), opt (parameterModifier "readonly")]) := by
  have hword {w : String} (h : w ∈ accessWords) : scanWord w (y ++ r) = none :=
    scanWord_of_not_mem hy hr hw (by decide) h
  simp (disch := decide) [RuleFails, parameterModifier, words, seqs, alts, opt, word, hword,
    scanSymbol_of_name hy]

theorem takes_binding (hy : IsName y) (hw : y ∉ (bindingWords true).map Text.ofString)
    (hg : Trivia g) (hz : Ends [".", "["] z) :
    Takes 20 (.rule (.binding true)) (g ++ y) z Sane := by
  have hname : Takes 0 (.lexeme .name (scanNameExcept (bindingWords true))) y z Sane :=
    takes_sane (by decide) .nil (hy.solid z) (scanNameExcept_append hy hz.stops hw)
  have hplain : Takes 0 (.seq (.lexeme .name (scanNameExcept (bindingWords true)))
      (.many (.alt (.seq (sym ".") anyName)
        (seqs [sym "[", .rule (.expressions .inside), sym "]"])))) y z Sane :=
    hname.before (passes_many (hz.refuses fun r hr =>
      ⟨Or.inl (hr "." (by simp)), Or.inl (hr "[" (by simp))⟩))
  have hsigns : ∀ q ∈ [.seq (sym "...") (.rule (.binding true)),
      seqs [sym "\x7b", sparse (alts [.seq (sym "...") (.rule (.binding true)),
        seqs [propertyName, sym ":", bindingWithDefault true],
        .seq anyName (opt (.seq (sym "=") (.rule (.expression .inside))))]), sym "\x7d"],
      seqs [sym "[", sparse (bindingWithDefault true), sym "]"]], Refuses 0 q (y ++ z) := by
    intro q hq
    refine refuses_of_fails (.of_solid (hy.solid z)) ?_
    revert q
    simp (disch := decide) [seqs, sym, scanSymbol_of_name hy]
  simp only [List.forall_mem_cons] at hsigns
  obtain ⟨hdots, hbrace, hbracket, -⟩ := hsigns
  have hnode : Takes 0 (binding true) (g ++ y) z _ :=
    Takes.node_last (.right hdots (.right hbrace (.right hbracket hplain)))
      (by decide) hg (hy.solid z)
  exact (Takes.rule (hnode.imp fun ts => sane_of_last fun w hw => hw.whole)).mono (by decide)

/-- What reads nothing takes the empty text. -/
theorem takes_nothing {p : P} (h : Passes m p z) : Takes m p [] z Sane :=
  fun b d o ha => ⟨[], h b d o ha, by simp [Sane]⟩

/-- A name, and what stands behind it in a parameter. -/
theorem takes_named (hy : IsName y) (hw : y ∉ accessWords.map Text.ofString)
    (hb : y ∉ (bindingWords true).map Text.ofString) (hg : Trivia g) (hr : Ends [".", "["] (r ++ z))
    (h : Takes 20 (seqs [opt (sym "?"), opt (ascribed .inside), opt (initialValue .inside)])
      r z Sane) :
    Takes 20 (parameter true) (g ++ (y ++ r)) z Sane := by
  have hnext : Next (g ++ (y ++ r) ++ z) (y ++ (r ++ z)) :=
    ⟨_, hg, hy.solid _, by simp only [List.append_assoc]⟩
  obtain ⟨hdecorator, haccess, hoverride, hreadonly⟩ := parameter_start hy hr.stops hw
  have hplace : Takes 20 (.alt (.rule (.binding true)) (word "this")) (g ++ y) (r ++ z) Sane :=
    .left (takes_binding hy hb hg hr)
  have hrest := hplace.seq_sane (List.append_ne_nil_of_right_ne_nil _ hy.ne_nil) h
  rw [List.append_assoc] at hrest
  exact .after (passes_of_idle hnext hdecorator) (.after (passes_of_idle hnext haccess)
    (.after (passes_of_idle hnext hoverride) (.after (passes_of_idle hnext hreadonly) hrest)))

/-! ## Types in parentheses -/

/-- What starts as no parameter is no list of them. -/
theorem refuses_list (hnext : Next z r) (h : Fails r (parameter true))
    (hclose : scanSymbol ")" r = none) :
    Refuses m (.seq (opt (commaList (parameter true))) (sym ")")) z := by
  have hidle : Idle r (opt (commaList (parameter true))) := ⟨Or.inl (Or.inl h), trivial⟩
  exact (passes_of_idle hnext hidle).refuses_seq (refuses_of_fails hnext hclose)

/-- A name that no parameter has starts none. -/
theorem fails_reserved (hy : IsName y) (hr : Stops r) (hw : y ∉ accessWords.map Text.ofString)
    (hb : y ∈ (bindingWords true).map Text.ofString) : Fails (y ++ r) (parameter true) := by
  refine fails_parameter (fun s hs => ?_)
    (fun w hmem => scanWord_of_not_mem hy hr hw (by decide) hmem) ?_
  · have hall : (["@", "...", "\x7b", "["].all fun s =>
        s.toList.head?.any fun d => !isNameChar d && d != '\\') = true := by decide
    exact scanSymbol_of_name hy (List.all_eq_true.1 hall s hs)
  · rw [scanNameExcept, hy.scanName_append hr]
    simpa using hb

theorem Grouped.refuses_list (h : Grouped x) (hg : Trivia g) (z : Text) :
    Refuses 20 (.seq (opt (commaList (parameter true))) (sym ")")) (g ++ (x ++ z)) := by
  have hclose {y t : Text} (hy : IsName y) : scanSymbol ")" (y ++ t) = none :=
    scanSymbol_of_name hy (by decide)
  cases h with
  | @sign c t hc hne =>
    have hlacks {s : String} {d : Char} (hs : s.toList.head? = some d)
        (hd : d ∈ offSigns ∨ d ∈ ['[', '\x7b']) : scanSymbol s (.scalar c :: (t ++ z)) = none := by
      refine scanSymbol_of_ne ?_ _ hs
      rintro rfl
      exact hd.elim hc.off hne
    refine Source.refuses_list ⟨g, hg, ⟨c, _, rfl, hc.isGap, fun h => hc.off (h ▸ by decide)⟩, rfl⟩
      (fails_parameter ?_ ?_ ?_) (hlacks rfl (by decide))
    · simp only [List.forall_mem_cons, List.not_mem_nil, false_implies, implies_true, and_true]
      have hat : c ≠ '@' := by
        rintro rfl
        exact hc.elim (by decide) (by decide)
      exact ⟨scanSymbol_of_ne hat _ rfl, hlacks rfl (by decide), hlacks rfl (by decide),
        hlacks rfl (by decide)⟩
    · have hall : (accessWords.all fun w => w.toList.head?.any fun d =>
          !startSigns.contains d && !Text.isAsciiDigit d) = true := by decide
      exact fun w hw => hc.lacks_word _ (List.all_eq_true.1 hall w hw)
    · rw [scanNameExcept, hc.lacks_name]
  | @operator w t hw ht =>
    have hall : ∀ w ∈ operatorWords, IsName (Text.ofString w) ∧
        Text.ofString w ∉ accessWords.map Text.ofString ∧
        Text.ofString w ∈ (bindingWords true).map Text.ofString := by
      simp only [IsName]
      decide
    obtain ⟨hname, haccess, hbinding⟩ := hall w hw
    rw [List.append_assoc]
    exact Source.refuses_list ⟨g, hg, hname.solid _, rfl⟩
      (fails_reserved hname (ht.append z) haccess hbinding) (hclose hname)
  | @joined y g' c t hy hw hg' hs hstop hc =>
    by_cases hb : y ∈ (bindingWords true).map Text.ofString
    · rw [List.append_assoc]
      exact Source.refuses_list ⟨g, hg, hy.solid _, rfl⟩ (fails_reserved hy (hstop.append z) hw hb)
        (hclose hy)
    · -- the name is read as a parameter, but neither a comma nor the parenthesis follows
      obtain ⟨_, _, ⟨⟩, hsolid⟩ := hs
      have hends : Ends [".", "[", "?", ":", "=", ",", ")"] (g' ++ .scalar c :: t ++ z) := by
        have hall : ([".", "[", "?", ":", "=", ",", ")"].all fun s =>
            ['<', '&', '|', 'e'].all fun c => s.toList.head?.any (· != c)) = true := by decide
        exact ⟨hstop.append z, .scalar c :: (t ++ z),
          ⟨g', hg', ⟨c, _, rfl, hsolid⟩, List.append_assoc _ _ _⟩, fun s hs =>
            scanSymbol_of_head _ (List.all_eq_true.1 (List.all_eq_true.1 hall s hs) c hc)⟩
      have hbare := takes_nothing (hends.passes (m := 20) (p := seqs [opt (sym "?"),
        opt (ascribed .inside), opt (initialValue .inside)]) fun s hs =>
          ⟨⟨hs "?" (by simp), trivial⟩, ⟨Or.inl (hs ":" (by simp)), trivial⟩,
            ⟨Or.inl (hs "=" (by simp)), trivial⟩⟩)
      have hparameter := takes_named (r := []) hy hw hb hg (hends.mono (by simp)) hbare
      have hmore : Passes 20 (.many (.seq (sym ",") (parameter true)))
          (g' ++ .scalar c :: t ++ z) :=
        hends.passes fun s hs => Or.inl (hs "," (by simp))
      have hlast : Passes 20 (opt (sym ",")) (g' ++ .scalar c :: t ++ z) :=
        hends.passes fun s hs => ⟨hs "," (by simp), trivial⟩
      have hlist : Takes 20 (opt (commaList (parameter true))) (g ++ (y ++ []))
        (g' ++ .scalar c :: t ++ z) Sane := .left ((hparameter.before hmore).before hlast)
      have hno := hlist.refuses_seq (by simp [hy.ne_nil])
        (hends.refuses (p := sym ")") fun s hs => hs ")" (by simp))
      simpa only [List.append_nil, List.append_assoc] using hno

theorem Grouped.refuses (h : Grouped x) (hg : Trivia g) (z : Text) :
    Refuses (m + 1) (.rule (.parameters true)) (Text.ofString "(" ++ (g ++ x) ++ z) := by
  have hopen {t : Text} : Takes m (sym "(") (Text.ofString "(") t Sane :=
    takes_sign .nil "(" (by decide)
  rw [List.append_assoc, List.append_assoc]
  exact refuses_rule (hopen.refuses_seq (by decide) (h.refuses_list hg z))

end

end Scaffold.Source
