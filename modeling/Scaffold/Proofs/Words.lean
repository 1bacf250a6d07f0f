/-
  The words of a name by a rule that looks at three characters.

  * `cutsBefore` is the rule, and `pieces` applies it in one pass. `breakAll_cons_cons` says that
    the two passes put a blank exactly where the rule cuts; by it the words are the pieces that are
    not empty (`wordList_eq_pieces`).
  * `SetApart` is a pass as a substitution: matches of two patterns, one behind the other, are set
    apart by a blank, from left to right and without overlap, where the first pattern takes as much
    as it can. `breakCapitals` is such a pass (`SetApart.eq_breakCapitals`). `breakHumps` knows the
    ten digits only; with those of other scripts the words are the same
    (`SetApart.sameWords_breakHumps`).

  `words_local_rule` puts both together.
-/
import Mathlib
import Scaffold.Proofs.Category
import Scaffold.Text.Digit

namespace Scaffold.Naming

/-! ## The rule -/

/-- Small letters and digits. -/
def isSmall (c : Char) : Bool := isLower c || isNumeral c

/-- What stands between words. -/
def isGap (c : Char) : Bool := !Text.isAsciiAlphanumeric c

/-- Whether a new word starts at a character: a capital behind a small letter or digit, or a capital
    behind a capital and before a small letter. -/
def cutsBefore (before : Option Char) (c : Char) (after : Option Char) : Bool :=
  isUpper c && (before.any isSmall || (before.any isUpper && after.any isLower))

/-- The pieces of a name behind a character: it is cut where the rule says so, and at the gaps,
    which are dropped. -/
def pieces (before : Option Char) : List Char → List (List Char)
  | [] => [[]]
  | c :: rest =>
    if isGap c then [] :: pieces (some c) rest
    else if cutsBefore before c rest.head? then
      [] :: (pieces (some c) rest).modifyHead (c :: ·)
    else (pieces (some c) rest).modifyHead (c :: ·)

/-! ### Kinds of characters -/

theorem isUpper_iff {c : Char} : isUpper c = true ↔ 65 ≤ c.toNat ∧ c.toNat ≤ 90 := by
  simp only [isUpper, Bool.and_eq_true, decide_eq_true_eq, Char.le_def, UInt32.le_iff_toNat_le]
  exact Iff.rfl

theorem isLower_iff {c : Char} : isLower c = true ↔ 97 ≤ c.toNat ∧ c.toNat ≤ 122 := by
  simp only [isLower, Bool.and_eq_true, decide_eq_true_eq, Char.le_def, UInt32.le_iff_toNat_le]
  exact Iff.rfl

theorem isNumeral_iff {c : Char} : isNumeral c = true ↔ 48 ≤ c.toNat ∧ c.toNat ≤ 57 := by
  simp only [isNumeral, Bool.and_eq_true, decide_eq_true_eq, Char.le_def, UInt32.le_iff_toNat_le]
  exact Iff.rfl

theorem isSmall_iff {c : Char} : isSmall c = true ↔
    (97 ≤ c.toNat ∧ c.toNat ≤ 122) ∨ (48 ≤ c.toNat ∧ c.toNat ≤ 57) := by
  rw [isSmall, Bool.or_eq_true, isLower_iff, isNumeral_iff]

theorem isGap_eq_false {c : Char} : isGap c = false ↔ isSmall c = true ∨ isUpper c = true := by
  rw [isGap, Bool.not_eq_false', isAsciiAlphanumeric_iff, isSmall_iff, isUpper_iff]
  omega

theorem isUpper_of_isSmall {c : Char} (h : isSmall c = true) : isUpper c = false := by
  rw [Bool.eq_false_iff, Ne, isUpper_iff]
  rw [isSmall_iff] at h
  omega

theorem isLower_of_isUpper {c : Char} (h : isUpper c = true) : isLower c = false := by
  rw [Bool.eq_false_iff, Ne, isLower_iff]
  rw [isUpper_iff] at h
  omega

@[simp] theorem cutsBefore_none (c : Char) (after : Option Char) :
    cutsBefore none c after = false := by
  simp [cutsBefore]

theorem cutsBefore_some (a b : Char) (after : Option Char) :
    cutsBefore (some a) b after = (isUpper b && (isSmall a || (isUpper a && after.any isLower))) :=
  rfl

theorem isUpper_of_cutsBefore {before after : Option Char} {c : Char}
    (h : cutsBefore before c after = true) : isUpper c = true :=
  (Bool.and_eq_true_iff.1 h).1

/-- A name is cut between characters of words only. -/
theorem isGap_of_cutsBefore {a b : Char} {after : Option Char}
    (h : cutsBefore (some a) b after = true) : isGap a = false ∧ isGap b = false := by
  rw [cutsBefore_some, Bool.and_eq_true, Bool.or_eq_true, Bool.and_eq_true] at h
  rw [isGap_eq_false, isGap_eq_false]
  exact ⟨h.2.imp_right And.left, Or.inr h.1⟩

/-! ### Pieces -/

theorem pieces_cons (before : Option Char) (c : Char) (rest : List Char) :
    pieces before (c :: rest) =
      if isGap c then [] :: pieces (some c) rest
      else if cutsBefore before c rest.head? then
        [] :: (pieces (some c) rest).modifyHead (c :: ·)
      else (pieces (some c) rest).modifyHead (c :: ·) := rfl

/-- Where the rule cuts, a piece ends and the rest starts anew. -/
theorem pieces_some_cons (a b : Char) (rest : List Char) :
    pieces (some a) (b :: rest) =
      if cutsBefore (some a) b rest.head? then [] :: pieces none (b :: rest)
      else pieces none (b :: rest) := by
  simp only [pieces_cons, cutsBefore_none]
  cases hc : cutsBefore (some a) b rest.head? with
  | true => simp [(isGap_of_cutsBefore hc).2]
  | false => simp

theorem pieces_none_cons (a : Char) (rest : List Char) :
    pieces none (a :: rest) =
      if isGap a then [] :: pieces (some a) rest
      else (pieces (some a) rest).modifyHead (a :: ·) := by
  simp [pieces_cons]

theorem pieces_ne_nil (before : Option Char) (cs : List Char) : pieces before cs ≠ [] := by
  cases cs with
  | nil => simp [pieces]
  | cons c rest =>
    have hlater := pieces_ne_nil (some c) rest
    rw [pieces_cons]
    (repeat' split) <;> simp [List.modifyHead_eq_nil_iff, hlater]

/-- The pieces of a name are made of its letters and digits, in their order. -/
theorem flatten_pieces (before : Option Char) (cs : List Char) :
    (pieces before cs).flatten = cs.filter Text.isAsciiAlphanumeric := by
  have hhead (c : Char) (ps : List (List Char)) (hps : ps ≠ []) :
      (ps.modifyHead (c :: ·)).flatten = c :: ps.flatten := by
    cases ps with
    | nil => exact absurd rfl hps
    | cons p ps => simp
  induction cs generalizing before with
  | nil => simp [pieces]
  | cons c rest ih =>
    rw [pieces_cons]
    cases hc : Text.isAsciiAlphanumeric c with
    | false => simp [isGap, hc, ih]
    | true =>
      have hlater := hhead c _ (pieces_ne_nil (some c) rest)
      rw [ih] at hlater
      simp only [isGap, hc, Bool.not_true, Bool.false_eq_true, if_false, List.filter_cons, if_true]
      split
      · rw [List.flatten_cons, hlater, List.nil_append]
      · exact hlater

/-! ## Both passes -/

theorem breakCapitals_cons_cons (a b : Char) (rest : List Char) :
    breakCapitals (a :: b :: rest) =
      if isUpper a && isUpper b && rest.head?.any isLower then
        a :: ' ' :: breakCapitals (b :: rest)
      else a :: breakCapitals (b :: rest) := by
  cases rest with
  | nil => simp [breakCapitals]
  | cons c rest => simp [breakCapitals]

theorem breakCapitals_cons (b : Char) (rest : List Char) :
    ∃ later, breakCapitals (b :: rest) = b :: later := by
  cases rest with
  | nil => exact ⟨[], rfl⟩
  | cons c rest =>
    rw [breakCapitals_cons_cons]
    split
    · exact ⟨_, rfl⟩
    · exact ⟨_, rfl⟩

theorem breakHumps_cons_cons (a b : Char) (rest : List Char) :
    breakHumps (a :: b :: rest) =
      if isSmall a && isUpper b then a :: ' ' :: breakHumps (b :: rest)
      else a :: breakHumps (b :: rest) := rfl

/-- Both passes, one after the other. -/
def breakAll (cs : List Char) : List Char := breakHumps (breakCapitals cs)

/-- **Both passes put a blank exactly where the rule cuts.** -/
theorem breakAll_cons_cons (a b : Char) (rest : List Char) :
    breakAll (a :: b :: rest) =
      if cutsBefore (some a) b rest.head? then a :: ' ' :: breakAll (b :: rest)
      else a :: breakAll (b :: rest) := by
  obtain ⟨later, hb⟩ := breakCapitals_cons b rest
  have hblank : breakHumps (a :: ' ' :: b :: later) = a :: ' ' :: breakHumps (b :: later) := by
    simp [breakHumps_cons_cons, isUpper, isSmall, isLower, isNumeral]
  rw [breakAll, breakAll, breakCapitals_cons_cons, cutsBefore_some, hb]
  cases hs : isSmall a with
  | true =>
    -- behind a small letter or digit only the second pass may cut
    simp [isUpper_of_isSmall hs, breakHumps_cons_cons, hs]
  | false =>
    simp only [Bool.false_or, Bool.and_left_comm (isUpper b), ← Bool.and_assoc]
    split
    · exact hblank
    · simp [breakHumps_cons_cons, hs]

theorem runsFrom_eq_splitOnP (run cs : List Char) :
    runsFrom run cs = (cs.splitOnP isGap).modifyHead (run.reverse ++ ·) := by
  induction cs generalizing run with
  | nil => simp [runsFrom]
  | cons c rest ih =>
    rw [runsFrom, List.splitOnP_cons_eq_if_modifyHead, ih, ih]
    by_cases hc : Text.isAsciiAlphanumeric c = true
    · simp [isGap, hc, Function.comp_def]
    · have hid : (rest.splitOnP isGap).modifyHead (fun w => w) = rest.splitOnP isGap :=
        congrFun List.modifyHead_id _
      simp [isGap, hc, hid]

theorem runsFrom_nil (cs : List Char) : runsFrom [] cs = cs.splitOnP isGap :=
  (runsFrom_eq_splitOnP [] cs).trans (congrFun List.modifyHead_id _)

theorem splitOnP_breakAll (cs : List Char) : (breakAll cs).splitOnP isGap = pieces none cs := by
  induction cs with
  | nil => rfl
  | cons a cs ih =>
    cases cs with
    | nil => simp [breakAll, breakCapitals, breakHumps, pieces, List.splitOnP_cons_eq_if_modifyHead]
    | cons b rest =>
      rw [breakAll_cons_cons, pieces_none_cons, pieces_some_cons, ← ih]
      by_cases hc : cutsBefore (some a) b rest.head? = true
      · have hblank : isGap ' ' = true := rfl
        simp [hc, List.splitOnP_cons_eq_if_modifyHead, hblank, (isGap_of_cutsBefore hc).1]
      · simp [hc, List.splitOnP_cons_eq_if_modifyHead]

/-- The words of a name are the pieces that are not empty. -/
theorem wordList_eq_pieces (name : List Char) :
    wordList name = (pieces none name).filter fun w => !w.isEmpty := by
  rw [wordList, runsFrom_nil, ← breakAll, splitOnP_breakAll]

/-! ## The passes as substitutions -/

/-- Matches of two patterns, one behind the other, are set apart by a blank. The matches are found
    from left to right and do not overlap; in each the first pattern takes as much as it can. -/
inductive SetApart (front back : List Char → Prop) : List Char → List Char → Prop
  | nil : SetApart front back [] []
  | skip {c : Char} {cs ds : List Char} :
      (∀ a b rest, front a → back b → c :: cs ≠ a ++ (b ++ rest)) →
      SetApart front back cs ds → SetApart front back (c :: cs) (c :: ds)
  | hit {a b rest ds : List Char} : front a → back b →
      (∀ a' b' rest', front a' → back b' → a ++ (b ++ rest) = a' ++ (b' ++ rest') →
        a'.length ≤ a.length) →
      SetApart front back rest ds → SetApart front back (a ++ (b ++ rest)) (a ++ ' ' :: (b ++ ds))

/-- Capitals, at least one. -/
def IsCapitals (cs : List Char) : Prop := cs ≠ [] ∧ ∀ c ∈ cs, isUpper c = true

/-- A capital and a small letter. -/
def IsCapitalized (cs : List Char) : Prop :=
  ∃ u l, cs = [u, l] ∧ isUpper u = true ∧ isLower l = true

/-- One character that satisfies a test. -/
def IsOne (test : Char → Bool) (cs : List Char) : Prop := ∃ c, cs = [c] ∧ test c = true

/-- Small letters, and the decimal digits of every script. -/
def isSmallWide (c : Char) : Bool := isLower c || (Text.decimalValue? c).isSome

/-- Both substitutions, one after the other. -/
def Substituted (cs ds : List Char) : Prop :=
  ∃ t, SetApart IsCapitals IsCapitalized cs t ∧ SetApart (IsOne isSmallWide) (IsOne isUpper) t ds

/-- Where two patterns match, there is a match in which the first takes as much as it can. -/
theorem exists_longest {front back : List Char → Prop} {cs : List Char}
    (h : ∃ a b rest, front a ∧ back b ∧ cs = a ++ (b ++ rest)) :
    ∃ a b rest, front a ∧ back b ∧ cs = a ++ (b ++ rest) ∧
      ∀ a' b' rest', front a' → back b' → cs = a' ++ (b' ++ rest') → a'.length ≤ a.length := by
  obtain ⟨a, b, rest, ha, hb, hcs⟩ := h
  -- a match that is not the longest one leaves less behind its first part the next time
  induction hn : cs.length - a.length using Nat.strong_induction_on generalizing a b rest with
  | _ n ih =>
    by_cases hlongest : ∀ a' b' rest', front a' → back b' → cs = a' ++ (b' ++ rest') →
        a'.length ≤ a.length
    · exact ⟨a, b, rest, ha, hb, hcs, hlongest⟩
    · push Not at hlongest
      obtain ⟨a', b', rest', ha', hb', hcs', hlt⟩ := hlongest
      have hle : a'.length ≤ cs.length := by simp [hcs']
      exact ih _ (by omega) a' b' rest' ha' hb' hcs' rfl

theorem exists_setApart {front back : List Char → Prop} (hfront : ¬ front []) (cs : List Char) :
    ∃ ds, SetApart front back cs ds := by
  induction hn : cs.length using Nat.strong_induction_on generalizing cs with
  | _ n ih =>
    subst hn
    by_cases hmatch : ∃ a b rest, front a ∧ back b ∧ cs = a ++ (b ++ rest)
    · obtain ⟨a, b, rest, ha, hb, rfl, hlongest⟩ := exists_longest hmatch
      have hne : 0 < a.length := List.length_pos_iff.2 fun h => hfront (h ▸ ha)
      obtain ⟨ds, hds⟩ := ih rest.length (by simp only [List.length_append]; omega) rest rfl
      exact ⟨_, .hit ha hb hlongest hds⟩
    · cases cs with
      | nil => exact ⟨[], .nil⟩
      | cons c cs =>
        obtain ⟨ds, hds⟩ := ih cs.length (by simp) cs rfl
        exact ⟨_, .skip (fun a b rest ha hb he => hmatch ⟨a, b, rest, ha, hb, he⟩) hds⟩

/-! ### Capitals -/

theorem breakCapitals_of_not_upper {a : Char} (h : isUpper a = false) (cs : List Char) :
    breakCapitals (a :: cs) = a :: breakCapitals cs := by
  cases cs with
  | nil => rfl
  | cons b rest => simp [breakCapitals_cons_cons, h]

theorem breakCapitals_match {a : List Char} {u l : Char} (rest : List Char) (hne : a ≠ [])
    (ha : ∀ c ∈ a, isUpper c = true) (hu : isUpper u = true) (hl : isLower l = true) :
    breakCapitals (a ++ u :: l :: rest) = a ++ ' ' :: u :: l :: breakCapitals rest := by
  have hl' : isUpper l = false := isUpper_of_isSmall (by simp [isSmall, hl])
  have hpair : breakCapitals (u :: l :: rest) = u :: l :: breakCapitals rest := by
    rw [breakCapitals_cons_cons, breakCapitals_of_not_upper hl']
    simp [hl']
  induction a with
  | nil => exact absurd rfl hne
  | cons x a ih =>
    have hx := ha x (by simp)
    cases a with
    | nil => simp [breakCapitals_cons_cons, hx, hu, hl, hpair]
    | cons y a =>
      -- behind the second capital there is another one
      have hnext : (a ++ u :: l :: rest).head?.any isLower = false := by
        cases a with
        | nil => simp [isLower_of_isUpper hu]
        | cons z a => simp [isLower_of_isUpper (ha z (by simp))]
      have ih := ih (by simp) fun c hc => ha c (List.mem_cons_of_mem x hc)
      simp only [List.cons_append] at ih ⊢
      rw [breakCapitals_cons_cons x y, hnext, ih]
      simp

/-- The first pass is the first substitution. -/
theorem SetApart.eq_breakCapitals {cs ds : List Char}
    (h : SetApart IsCapitals IsCapitalized cs ds) : ds = breakCapitals cs := by
  induction h with
  | nil => rfl
  | @skip c cs ds hno h ih =>
    rw [ih]
    cases cs with
    | nil => rfl
    | cons b rest =>
      rw [breakCapitals_cons_cons, if_neg]
      intro hc
      simp only [Bool.and_eq_true] at hc
      obtain ⟨⟨hu, hb⟩, hlow⟩ := hc
      cases rest with
      | nil => cases hlow
      | cons l rest =>
        exact hno [c] [b, l] rest ⟨by simp, by simpa using hu⟩ ⟨b, l, rfl, hb, hlow⟩ rfl
  | @hit a b rest ds ha hb hlongest h ih =>
    obtain ⟨u, l, rfl, hu, hl⟩ := hb
    rw [ih]
    exact (breakCapitals_match rest ha.1 ha.2 hu hl).symm

/-! ### Humps -/

/-- Two texts have the same words, whatever stands before them. -/
def SameWords (cs ds : List Char) : Prop :=
  ∀ run, ((runsFrom run cs).filter fun w => !w.isEmpty) =
    (runsFrom run ds).filter fun w => !w.isEmpty

theorem SameWords.cons {cs ds : List Char} (h : SameWords cs ds) (c : Char) :
    SameWords (c :: cs) (c :: ds) := by
  intro run
  unfold runsFrom
  split
  · exact h (c :: run)
  · rw [List.filter_cons, List.filter_cons, h []]

/-- A blank behind a gap makes no difference. -/
theorem SameWords.blank {cs ds : List Char} (h : SameWords cs ds) {c : Char}
    (hc : isGap c = true) : SameWords (c :: ' ' :: cs) (c :: ds) := by
  have hblank : Text.isAsciiAlphanumeric ' ' = false := rfl
  rw [isGap, Bool.not_eq_true'] at hc
  intro run
  simp [runsFrom, hc, hblank, List.filter_cons, h []]

theorem isSmallWide_of_isSmall {c : Char} (h : isSmall c = true) : isSmallWide c = true := by
  rw [isSmallWide, Bool.or_eq_true]
  refine (Bool.or_eq_true_iff.1 h).imp_right fun hn => ?_
  rw [isNumeral_iff] at hn
  rw [Text.decimalValue?, Option.isSome_map, List.find?_isSome]
  exact ⟨48, by simp [Text.zeros], by simp; omega⟩

/-- The digits of other scripts are gaps. -/
theorem isGap_of_isSmallWide {c : Char} (h : isSmallWide c = true) (hs : isSmall c = false) :
    isGap c = true := by
  have hdigit : (Text.decimalValue? c).isSome = true := by
    rw [isSmall, Bool.or_eq_false_iff] at hs
    simpa [isSmallWide, hs.1] using h
  rw [Text.decimalValue?, Option.isSome_map, List.find?_isSome] at hdigit
  obtain ⟨z, hz, hc⟩ := hdigit
  have hzeros : ∀ z ∈ Text.zeros, z = 48 ∨ 90 < z := by decide
  by_contra hg
  rw [Bool.not_eq_true, isGap_eq_false, hs, isUpper_iff] at hg
  simp only [Bool.and_eq_true, decide_eq_true_eq] at hc
  rcases hzeros z hz with rfl | hz <;> simp at hg <;> omega

/-- The second pass finds the words that the second substitution finds. -/
theorem SetApart.sameWords_breakHumps {cs ds : List Char}
    (h : SetApart (IsOne isSmallWide) (IsOne isUpper) cs ds) : SameWords ds (breakHumps cs) := by
  induction h with
  | nil => exact fun _ => rfl
  | @skip c cs ds hno h ih =>
    have hskip : breakHumps (c :: cs) = c :: breakHumps cs := by
      cases cs with
      | nil => rfl
      | cons b rest =>
        rw [breakHumps_cons_cons, if_neg]
        intro hc
        rw [Bool.and_eq_true] at hc
        exact hno [c] [b] rest ⟨c, rfl, isSmallWide_of_isSmall hc.1⟩ ⟨b, rfl, hc.2⟩ rfl
    rw [hskip]
    exact ih.cons c
  | @hit a b rest ds ha hb hlongest h ih =>
    obtain ⟨x, rfl, hx⟩ := ha
    obtain ⟨y, rfl, hy⟩ := hb
    have hupper : breakHumps (y :: rest) = y :: breakHumps rest := by
      have hs : isSmall y = false := by
        rw [Bool.eq_false_iff]
        intro hs
        rw [isUpper_of_isSmall hs] at hy
        cases hy
      cases rest with
      | nil => rfl
      | cons z rest => simp [breakHumps_cons_cons, hs]
    simp only [List.cons_append, List.nil_append, breakHumps_cons_cons, hy, Bool.and_true, hupper]
    cases hs : isSmall x with
    | true => exact ((ih.cons y).cons ' ').cons x
    | false => exact (ih.cons y).blank (isGap_of_isSmallWide hx hs)

theorem exists_substituted (cs : List Char) : ∃ ds, Substituted cs ds := by
  obtain ⟨t, ht⟩ : ∃ t, SetApart IsCapitals IsCapitalized cs t :=
    exists_setApart (fun h => h.1 rfl) cs
  obtain ⟨ds, hds⟩ : ∃ ds, SetApart (IsOne isSmallWide) (IsOne isUpper) t ds := by
    refine exists_setApart ?_ t
    rintro ⟨c, hc, -⟩
    cases hc
  exact ⟨ds, t, ht, hds⟩

theorem Substituted.wordList_eq {cs ds : List Char} (h : Substituted cs ds) :
    wordList cs = (ds.splitOnP isGap).filter fun w => !w.isEmpty := by
  obtain ⟨t, ht, hds⟩ := h
  rw [wordList, ← ht.eq_breakCapitals, ← hds.sameWords_breakHumps [], runsFrom_nil]

/-! ## Words -/

/-- **The words of a name by the local rule.** They are the pieces that are not empty when the name
    is cut at the gaps and where the rule says so; each is made of letters and digits, and together
    they are the letters and digits of the name. They are also what the two substitutions and a
    split at the gaps give. -/
theorem words_local_rule (name : String) :
    words name = ((pieces none name.toList).filter fun w => !w.isEmpty).map String.ofList ∧
    (∀ w ∈ words name, IsWord w) ∧
    (words name).flatMap String.toList = name.toList.filter Text.isAsciiAlphanumeric ∧
    (∃ text, Substituted name.toList text) ∧
    ∀ text, Substituted name.toList text →
      words name = ((text.splitOnP isGap).filter fun w => !w.isEmpty).map String.ofList := by
  refine ⟨?_, fun w hw => ?_, ?_, exists_substituted _, fun text h => ?_⟩
  · rw [words, wordList_eq_pieces]
  · obtain ⟨v, hv, rfl⟩ := List.mem_map.1 hw
    obtain ⟨hne, hchars⟩ := mem_wordList hv
    exact ⟨by simpa using hne, by simpa using hchars⟩
  · rw [words, List.flatMap_map, wordList_eq_pieces, ← flatten_pieces none,
      ← List.flatten_filter_not_isEmpty]
    simp
  · rw [words, h.wordList_eq]

end Scaffold.Naming
