/-
  Names in the usual cases.

  * A name without gaps is broken before capitals only, so in Pascal case it is the name with its
    first letter large (`pascalChars_of_noGap`). A name in Pascal or camel case has no gaps.
  * Words in small letters are found again between low lines (`wordList_joinWith`), and behind their
    large first letters if each has a second character (`wordList_humps`).

  `cases_stable` and `snakeCase_undoes` follow from these.
-/
import Mathlib
import Scaffold.Proofs.Words
import Scaffold.Template.Function

namespace Scaffold.Naming

/-! ## Letters -/

theorem toNat_toUpper (c : Char) :
    c.toUpper.toNat = if isLower c then c.toNat - 32 else c.toNat := by
  have hc : isLower c = true ↔ 'a'.val ≤ c.val ∧ c.val ≤ 'z'.val := by
    simp only [isLower, Bool.and_eq_true, decide_eq_true_eq, Char.le_def]
  unfold Char.toUpper
  split
  · next h =>
    rw [if_pos (hc.2 h)]
    have hlo : 97 ≤ c.val.toNat := UInt32.le_iff_toNat_le.1 h.1
    have hhi : c.val.toNat ≤ 122 := UInt32.le_iff_toNat_le.1 h.2
    show (c.val + ('A'.val - 'a'.val)).toNat = c.val.toNat - 32
    rw [UInt32.toNat_add]
    simp only [Char.reduceVal, UInt32.reduceSub, UInt32.reduceToNat]
    omega
  · next h => rw [if_neg (mt hc.1 h)]

theorem toNat_toLower (c : Char) :
    c.toLower.toNat = if isUpper c then c.toNat + 32 else c.toNat := by
  have hc : isUpper c = true ↔ c.val ≥ 'A'.val ∧ c.val ≤ 'Z'.val := by
    simp only [isUpper, Bool.and_eq_true, decide_eq_true_eq, Char.le_def, ge_iff_le]
  unfold Char.toLower
  split
  · next h =>
    rw [if_pos (hc.2 h)]
    have hlo : 65 ≤ c.val.toNat := UInt32.le_iff_toNat_le.1 h.1
    have hhi : c.val.toNat ≤ 90 := UInt32.le_iff_toNat_le.1 h.2
    show (c.val + ('a'.val - 'A'.val)).toNat = c.val.toNat + 32
    rw [UInt32.toNat_add]
    simp only [Char.reduceVal, UInt32.reduceSub, UInt32.reduceToNat]
    omega
  · next h => rw [if_neg (mt hc.1 h)]

theorem toUpper_eq_self {c : Char} (h : isLower c = false) : c.toUpper = c := by
  rw [← Char.toNat_inj, toNat_toUpper, if_neg (by simp [h])]

theorem toLower_eq_self {c : Char} (h : isUpper c = false) : c.toLower = c := by
  rw [← Char.toNat_inj, toNat_toLower, if_neg (by simp [h])]

theorem isUpper_toUpper {c : Char} (h : isLower c = true) : isUpper c.toUpper = true := by
  rw [isUpper_iff, toNat_toUpper, if_pos h]
  rw [isLower_iff] at h
  omega

theorem isLower_toLower {c : Char} (h : isUpper c = true) : isLower c.toLower = true := by
  rw [isLower_iff, toNat_toLower, if_pos h]
  rw [isUpper_iff] at h
  omega

theorem toUpper_toUpper (c : Char) : c.toUpper.toUpper = c.toUpper := by
  cases h : isLower c with
  | true => exact toUpper_eq_self (isLower_of_isUpper (isUpper_toUpper h))
  | false => rw [toUpper_eq_self h, toUpper_eq_self h]

theorem toUpper_toLower (c : Char) : c.toLower.toUpper = c.toUpper := by
  cases h : isUpper c with
  | true =>
    rw [toUpper_eq_self (isLower_of_isUpper h), ← Char.toNat_inj, toNat_toUpper,
      if_pos (isLower_toLower h), toNat_toLower, if_pos h]
    omega
  | false => rw [toLower_eq_self h]

theorem toLower_toUpper {c : Char} (h : isLower c = true) : c.toUpper.toLower = c := by
  rw [← Char.toNat_inj, toNat_toLower, if_pos (isUpper_toUpper h), toNat_toUpper, if_pos h]
  rw [isLower_iff] at h
  omega

theorem isSmall_of_isLower {c : Char} (h : isLower c = true) : isSmall c = true := by
  simp [isSmall, h]

theorem isSmall_toLower {c : Char} (h : isGap c = false) : isSmall c.toLower = true := by
  rcases isGap_eq_false.1 h with hs | hu
  · rwa [toLower_eq_self (isUpper_of_isSmall hs)]
  · exact isSmall_of_isLower (isLower_toLower hu)

theorem isGap_toUpper {c : Char} (h : isGap c = false) : isGap c.toUpper = false := by
  cases hl : isLower c with
  | true => exact isGap_eq_false.2 (Or.inr (isUpper_toUpper hl))
  | false => rwa [toUpper_eq_self hl]

/-! ## Names without gaps -/

theorem isGap_of_mem_wordList {name w : List Char} (h : w ∈ wordList name) :
    ∀ c ∈ w, isGap c = false := by
  intro c hc
  rw [isGap, (mem_wordList h).2 c hc]
  rfl

theorem upperFirst_append {w : List Char} (hw : w ≠ []) (cs : List Char) :
    upperFirst (w ++ cs) = upperFirst w ++ cs := by
  cases w with
  | nil => exact absurd rfl hw
  | cons c w => rfl

theorem upperFirst_upperFirst (cs : List Char) : upperFirst (upperFirst cs) = upperFirst cs := by
  cases cs with
  | nil => rfl
  | cons c cs => rw [upperFirst, upperFirst, toUpper_toUpper]

theorem upperFirst_lowerFirst (cs : List Char) : upperFirst (lowerFirst cs) = upperFirst cs := by
  cases cs with
  | nil => rfl
  | cons c cs => rw [lowerFirst, upperFirst, upperFirst, toUpper_toLower]

theorem mem_upperFirst {cs : List Char} (h : ∀ c ∈ cs, isGap c = false) :
    ∀ c ∈ upperFirst cs, isGap c = false := by
  cases cs with
  | nil => exact h
  | cons d cs =>
    intro c hc
    rcases List.mem_cons.1 hc with rfl | hc
    · exact isGap_toUpper (h d (by simp))
    · exact h c (List.mem_cons_of_mem d hc)

theorem mem_lowerFirst {cs : List Char} (h : ∀ c ∈ cs, isGap c = false) :
    ∀ c ∈ lowerFirst cs, isGap c = false := by
  cases cs with
  | nil => exact h
  | cons d cs =>
    intro c hc
    rcases List.mem_cons.1 hc with rfl | hc
    · exact isGap_eq_false.2 (Or.inl (isSmall_toLower (h d (by simp))))
    · exact h c (List.mem_cons_of_mem d hc)

/-- Behind a character, a name without gaps is broken before capitals only, so large first letters
    change nothing there. -/
theorem upperFirst_pieces (a : Char) {cs : List Char} (h : ∀ c ∈ cs, isGap c = false) :
    ∃ p ps, pieces (some a) cs = p :: ps ∧ p ++ (ps.map upperFirst).flatten = cs := by
  induction cs generalizing a with
  | nil => exact ⟨[], [], rfl, rfl⟩
  | cons c cs ih =>
    obtain ⟨p, ps, hp, hcs⟩ := ih c fun d hd => h d (List.mem_cons_of_mem c hd)
    rw [pieces_cons, hp, h c (by simp), List.modifyHead_cons]
    simp only [Bool.false_eq_true, if_false]
    split
    · next hcut =>
      have hc : c.toUpper = c := toUpper_eq_self (isLower_of_isUpper (isUpper_of_cutsBefore hcut))
      exact ⟨[], (c :: p) :: ps, rfl, by simp [upperFirst, hc, hcs]⟩
    · exact ⟨c :: p, ps, rfl, by simp [hcs]⟩

theorem pascalChars_eq_pieces (name : List Char) :
    pascalChars name = ((pieces none name).map upperFirst).flatten := by
  have hempty : (fun w => !(upperFirst w).isEmpty) = fun w : List Char => !w.isEmpty := by
    funext w
    cases w <;> rfl
  rw [pascalChars, wordList_eq_pieces,
    ← List.flatten_filter_not_isEmpty (L := (pieces none name).map upperFirst), List.filter_map,
    Function.comp_def, hempty]

/-- **In Pascal case a name without gaps has its first letter large, and is the same behind it.** -/
theorem pascalChars_of_noGap {name : List Char} (h : ∀ c ∈ name, isGap c = false) :
    pascalChars name = upperFirst name := by
  rw [pascalChars_eq_pieces]
  cases name with
  | nil => rfl
  | cons a cs =>
    obtain ⟨p, ps, hp, hcs⟩ := upperFirst_pieces a fun c hc => h c (List.mem_cons_of_mem a hc)
    rw [pieces_none_cons, hp, h a (by simp)]
    simp [upperFirst, hcs]

/-! ### Pascal case -/

theorem mem_pascalChars (name : List Char) : ∀ c ∈ pascalChars name, isGap c = false := by
  intro c hc
  obtain ⟨w, hw, hc⟩ := List.mem_flatten.1 hc
  obtain ⟨v, hv, rfl⟩ := List.mem_map.1 hw
  exact mem_upperFirst (isGap_of_mem_wordList hv) c hc

theorem upperFirst_pascalChars (name : List Char) :
    upperFirst (pascalChars name) = pascalChars name := by
  unfold pascalChars
  cases hws : wordList name with
  | nil => rfl
  | cons w ws =>
    have hw : upperFirst w ≠ [] := by
      have hne := (mem_wordList (by simp [hws] : w ∈ wordList name)).1
      cases w with
      | nil => exact absurd rfl hne
      | cons c w => simp [upperFirst]
    rw [List.map_cons, List.flatten_cons, upperFirst_append hw, upperFirst_upperFirst]

theorem pascalChars_pascalChars (name : List Char) :
    pascalChars (pascalChars name) = pascalChars name := by
  rw [pascalChars_of_noGap (mem_pascalChars name), upperFirst_pascalChars]

theorem pascalChars_camelChars (name : List Char) :
    pascalChars (camelChars name) = pascalChars name := by
  rw [camelChars, pascalChars_of_noGap (mem_lowerFirst (mem_pascalChars name)),
    upperFirst_lowerFirst, upperFirst_pascalChars]

theorem camelChars_pascalChars (name : List Char) :
    camelChars (pascalChars name) = camelChars name := by
  rw [camelChars, camelChars, pascalChars_pascalChars]

theorem camelChars_camelChars (name : List Char) :
    camelChars (camelChars name) = camelChars name := by
  rw [camelChars, pascalChars_camelChars]
  rfl

/-! ### Snake case -/

/-- A name without capitals is broken at the gaps only. -/
theorem pieces_of_noUpper (before : Option Char) {cs : List Char}
    (h : ∀ c ∈ cs, isUpper c = false) : pieces before cs = cs.splitOnP isGap := by
  induction cs generalizing before with
  | nil => rfl
  | cons c cs ih =>
    rw [pieces_cons, List.splitOnP_cons_eq_if_modifyHead,
      ih (some c) fun d hd => h d (List.mem_cons_of_mem c hd)]
    simp [cutsBefore, h c (by simp)]

/-- Words in small letters and digits. -/
def AllSmall (ws : List (List Char)) : Prop := ∀ w ∈ ws, w ≠ [] ∧ ∀ c ∈ w, isSmall c = true

theorem splitOnP_joinWith {w : List Char} {ws : List (List Char)} (h : AllSmall (w :: ws)) :
    (Text.joinWith ['_'] (w :: ws)).splitOnP isGap = w :: ws := by
  have hword {v : List Char} (hv : v ∈ w :: ws) : v.splitOnP isGap = [v] :=
    List.splitOnP_eq_singleton fun c hc => by simp [isGap_eq_false.2 (Or.inl ((h v hv).2 c hc))]
  induction ws generalizing w with
  | nil =>
    show w.splitOnP isGap = [w]
    exact hword (by simp)
  | cons v ws ih =>
    have hrest := ih (fun u hu => h u (List.mem_cons_of_mem w hu)) fun hv =>
      hword (List.mem_cons_of_mem w hv)
    have hlow : isGap '_' = true := rfl
    rw [Text.joinWith, List.append_assoc, List.singleton_append,
      List.splitOnP_append_cons _ _ hlow, hword (by simp), hrest, List.singleton_append]

theorem mem_joinWith {ws : List (List Char)} {c : Char} (h : c ∈ Text.joinWith ['_'] ws) :
    c = '_' ∨ ∃ w ∈ ws, c ∈ w := by
  induction ws with
  | nil => cases h
  | cons w ws ih =>
    cases ws with
    | nil => exact Or.inr ⟨w, by simp, h⟩
    | cons v ws =>
      rw [Text.joinWith, List.append_assoc, List.mem_append, List.singleton_append,
        List.mem_cons] at h
      rcases h with h | h | h
      · exact Or.inr ⟨w, by simp, h⟩
      · exact Or.inl h
      · refine (ih h).imp_right ?_
        rintro ⟨u, hu, hc⟩
        exact ⟨u, List.mem_cons_of_mem w hu, hc⟩

/-- Words in small letters are found again between low lines. -/
theorem wordList_joinWith {ws : List (List Char)} (h : AllSmall ws) :
    wordList (Text.joinWith ['_'] ws) = ws := by
  cases ws with
  | nil => rfl
  | cons w ws =>
    have hupper : ∀ c ∈ Text.joinWith ['_'] (w :: ws), isUpper c = false := by
      intro c hc
      rcases mem_joinWith hc with rfl | ⟨v, hv, hc⟩
      · rfl
      · exact isUpper_of_isSmall ((h v hv).2 c hc)
    rw [wordList_eq_pieces, pieces_of_noUpper none hupper, splitOnP_joinWith h,
      List.filter_eq_self]
    intro v hv
    simpa using (h v hv).1

theorem allSmall_lowerAll (name : List Char) : AllSmall ((wordList name).map lowerAll) := by
  intro w hw
  obtain ⟨v, hv, rfl⟩ := List.mem_map.1 hw
  refine ⟨by simpa [lowerAll] using (mem_wordList hv).1, fun c hc => ?_⟩
  obtain ⟨d, hd, rfl⟩ := List.mem_map.1 hc
  exact isSmall_toLower (isGap_of_mem_wordList hv d hd)

theorem lowerAll_of_isSmall {w : List Char} (h : ∀ c ∈ w, isSmall c = true) : lowerAll w = w :=
  (List.map_congr_left fun c hc => toLower_eq_self (isUpper_of_isSmall (h c hc))).trans
    (List.map_id' w)

/-- Words in small letters between low lines are a name in snake case. -/
theorem snakeChars_joinWith {ws : List (List Char)} (h : AllSmall ws) :
    snakeChars (Text.joinWith ['_'] ws) = Text.joinWith ['_'] ws := by
  have hlower : ws.map lowerAll = ws :=
    (List.map_congr_left fun w hw => lowerAll_of_isSmall (h w hw).2).trans (List.map_id' ws)
  rw [snakeChars, wordList_joinWith h, hlower]

theorem snakeChars_snakeChars (name : List Char) : snakeChars (snakeChars name) = snakeChars name :=
  snakeChars_joinWith (allSmall_lowerAll name)

/-! ## Words with large first letters -/

/-- A word with a large first letter: a capital, and small letters or digits, at least one. -/
def IsHump (w : List Char) : Prop :=
  ∃ u d cs, w = u :: d :: cs ∧ isUpper u = true ∧ ∀ c ∈ d :: cs, isSmall c = true

/-- Behind small letters and digits comes another piece of the same word. -/
theorem pieces_append_small {a : Char} (ha : isSmall a = true) {cs : List Char}
    (h : ∀ c ∈ cs, isSmall c = true) : ∃ b, isSmall b = true ∧
      ∀ rest, pieces (some a) (cs ++ rest) = (pieces (some b) rest).modifyHead (cs ++ ·) := by
  induction cs generalizing a with
  | nil => exact ⟨a, ha, fun rest => (congrFun List.modifyHead_id _).symm⟩
  | cons c cs ih =>
    have hc := h c (by simp)
    obtain ⟨b, hb, hrest⟩ := ih hc fun d hd => h d (List.mem_cons_of_mem c hd)
    refine ⟨b, hb, fun rest => ?_⟩
    have hcut : cutsBefore (some a) c (cs ++ rest).head? = false := by
      simp [cutsBefore, isUpper_of_isSmall hc]
    rw [List.cons_append, pieces_cons, isGap_eq_false.2 (Or.inl hc), hcut, hrest]
    simp [Function.comp_def]

/-- Words with large first letters are found again behind a small letter or digit. -/
theorem pieces_humps {a : Char} (ha : isSmall a = true) {vs : List (List Char)}
    (h : ∀ v ∈ vs, IsHump v) : pieces (some a) vs.flatten = [] :: vs := by
  induction vs generalizing a with
  | nil => rfl
  | cons v vs ih =>
    obtain ⟨u, d, cs, rfl, hu, hcs⟩ := h v (by simp)
    have hd := hcs d (by simp)
    obtain ⟨b, hb, hrest⟩ := pieces_append_small hd fun c hc => hcs c (List.mem_cons_of_mem d hc)
    have hcut : cutsBefore (some a) u (d :: cs ++ vs.flatten).head? = true := by
      simp [cutsBefore, hu, ha]
    have hstay : cutsBefore (some u) d (cs ++ vs.flatten).head? = false := by
      simp [cutsBefore, isUpper_of_isSmall hd]
    rw [List.flatten_cons, List.cons_append, pieces_cons, isGap_eq_false.2 (Or.inr hu), hcut,
      List.cons_append, pieces_cons, isGap_eq_false.2 (Or.inl hd), hstay, hrest,
      ih hb fun v hv => h v (List.mem_cons_of_mem _ hv)]
    simp

/-- Words with large first letters are found again where they follow a word. -/
theorem wordList_humps {c d : Char} {cs : List Char} {vs : List (List Char)}
    (hc : isGap c = false) (hcs : ∀ e ∈ d :: cs, isSmall e = true) (h : ∀ v ∈ vs, IsHump v) :
    wordList (c :: d :: cs ++ vs.flatten) = (c :: d :: cs) :: vs := by
  have hd := hcs d (by simp)
  obtain ⟨b, hb, hrest⟩ := pieces_append_small hd fun e he => hcs e (List.mem_cons_of_mem d he)
  have hstay : cutsBefore (some c) d (cs ++ vs.flatten).head? = false := by
    simp [cutsBefore, isUpper_of_isSmall hd]
  have hpieces : pieces none (c :: d :: cs ++ vs.flatten) = (c :: d :: cs) :: vs := by
    rw [List.cons_append, List.cons_append, pieces_none_cons, hc, pieces_cons,
      isGap_eq_false.2 (Or.inl hd), hstay, hrest, pieces_humps hb h]
    simp
  rw [wordList_eq_pieces, hpieces, List.filter_eq_self]
  intro v hv
  rcases List.mem_cons.1 hv with rfl | hv
  · rfl
  · obtain ⟨u, e, es, rfl, -⟩ := h v hv
    rfl

/-! ## Back to snake case -/

/-- A word that starts with a small letter and has at least one more small letter or digit. -/
def IsPlain (w : List Char) : Prop :=
  ∃ c d cs, w = c :: d :: cs ∧ isLower c = true ∧ ∀ e ∈ d :: cs, isSmall e = true

theorem IsPlain.isHump {w : List Char} (h : IsPlain w) : IsHump (upperFirst w) := by
  obtain ⟨c, d, cs, rfl, hc, hcs⟩ := h
  exact ⟨c.toUpper, d, cs, rfl, isUpper_toUpper hc, hcs⟩

theorem IsPlain.lowerAll_upperFirst {w : List Char} (h : IsPlain w) :
    lowerAll (upperFirst w) = w := by
  obtain ⟨c, d, cs, rfl, hc, hcs⟩ := h
  show c.toUpper.toLower :: lowerAll (d :: cs) = _
  rw [toLower_toUpper hc, lowerAll_of_isSmall hcs]

theorem allSmall_of_isPlain {ws : List (List Char)} (h : ∀ w ∈ ws, IsPlain w) : AllSmall ws := by
  intro w hw
  obtain ⟨c, d, cs, rfl, hc, hcs⟩ := h w hw
  refine ⟨by simp, fun e he => ?_⟩
  rcases List.mem_cons.1 he with rfl | he
  · exact isSmall_of_isLower hc
  · exact hcs e he

theorem snakeChars_humps {w : List Char} {ws : List (List Char)} (h : ∀ v ∈ w :: ws, IsPlain v) :
    snakeChars (upperFirst w ++ (ws.map upperFirst).flatten) = Text.joinWith ['_'] (w :: ws) ∧
    snakeChars (w ++ (ws.map upperFirst).flatten) = Text.joinWith ['_'] (w :: ws) := by
  have hhumps : ∀ v ∈ ws.map upperFirst, IsHump v := by
    intro v hv
    obtain ⟨u, hu, rfl⟩ := List.mem_map.1 hv
    exact (h u (List.mem_cons_of_mem w hu)).isHump
  have hlower : (ws.map upperFirst).map lowerAll = ws := by
    rw [List.map_map]
    refine (List.map_congr_left fun v hv => ?_).trans (List.map_id' ws)
    exact (h v (List.mem_cons_of_mem w hv)).lowerAll_upperFirst
  have hw := h w (by simp)
  have hsmall := lowerAll_of_isSmall (allSmall_of_isPlain h w (by simp)).2
  have hfirst := hw.lowerAll_upperFirst
  obtain ⟨c, d, cs, rfl, hc, hcs⟩ := hw
  have hgap : isGap c = false := isGap_eq_false.2 (Or.inl (isSmall_of_isLower hc))
  rw [upperFirst] at hfirst ⊢
  rw [snakeChars, snakeChars, wordList_humps (isGap_toUpper hgap) hcs hhumps,
    wordList_humps hgap hcs hhumps, List.map_cons, List.map_cons, hlower, hfirst, hsmall]
  exact ⟨rfl, rfl⟩

theorem snakeChars_undoes {ws : List (List Char)} (h : ∀ w ∈ ws, IsPlain w) :
    snakeChars (pascalChars (Text.joinWith ['_'] ws)) = Text.joinWith ['_'] ws ∧
    snakeChars (camelChars (Text.joinWith ['_'] ws)) = Text.joinWith ['_'] ws := by
  have hpascal : pascalChars (Text.joinWith ['_'] ws) = (ws.map upperFirst).flatten := by
    rw [pascalChars, wordList_joinWith (allSmall_of_isPlain h)]
  rw [camelChars, hpascal]
  cases ws with
  | nil => exact ⟨rfl, rfl⟩
  | cons w ws =>
    have hlower : lowerFirst (upperFirst w ++ (ws.map upperFirst).flatten) =
        w ++ (ws.map upperFirst).flatten := by
      obtain ⟨c, d, cs, rfl, hc, -⟩ := h w (by simp)
      rw [upperFirst, List.cons_append, lowerFirst, toLower_toUpper hc]
      rfl
    rw [List.map_cons, List.flatten_cons, hlower]
    exact snakeChars_humps h

theorem joinWords_toList (ws : List String) :
    (joinWords ws).toList = Text.joinWith ['_'] (ws.map String.toList) := by
  induction ws with
  | nil => rfl
  | cons w ws ih =>
    cases ws with
    | nil => simp [joinWords, Text.joinWith]
    | cons v ws =>
      rw [joinWords_cons_cons, ih]
      simp [Text.joinWith]

/-- **Snake case undoes Pascal case and camel case** where words have two or more characters: small
    letters and digits, a letter first. -/
theorem snakeCase_undoes {ws : List String} (h : ∀ w ∈ ws, IsPlain w.toList) :
    snakeCase (pascalCase (joinWords ws)) = joinWords ws ∧
    snakeCase (camelCase (joinWords ws)) = joinWords ws := by
  have hlists : ∀ w ∈ ws.map String.toList, IsPlain w := by simpa using h
  obtain ⟨hpascal, hcamel⟩ := snakeChars_undoes hlists
  rw [← joinWords_toList] at hpascal hcamel
  constructor
  · rw [snakeCase, pascalCase, String.toList_ofList, hpascal, String.ofList_toList]
  · rw [snakeCase, camelCase, String.toList_ofList, hcamel, String.ofList_toList]

/-- Digits at the ends of words, and words of two characters. -/
theorem snakeCase_undoes_digits :
    (∀ w ∈ ["http2", "x0", "v42"], IsPlain w.toList) ∧
    joinWords ["http2", "x0", "v42"] = "http2_x0_v42" ∧
    pascalCase "http2_x0_v42" = "Http2X0V42" ∧ snakeCase "Http2X0V42" = "http2_x0_v42" ∧
    camelCase "http2_x0_v42" = "http2X0V42" ∧ snakeCase "http2X0V42" = "http2_x0_v42" := by
  have hplain : ∀ w ∈ ["http2", "x0", "v42"], IsPlain w.toList := by
    intro w hw
    simp only [List.mem_cons, List.not_mem_nil, or_false] at hw
    rcases hw with rfl | rfl | rfl
    · exact ⟨'h', 't', ['t', 'p', '2'], rfl, rfl, by simp [isSmall, isLower, isNumeral]⟩
    · exact ⟨'x', '0', [], rfl, rfl, by simp [isSmall, isLower, isNumeral]⟩
    · exact ⟨'v', '4', ['2'], rfl, rfl, by simp [isSmall, isLower, isNumeral]⟩
  have hjoin : joinWords ["http2", "x0", "v42"] = "http2_x0_v42" := by decide
  have hpascal : pascalCase "http2_x0_v42" = "Http2X0V42" := by decide +kernel
  have hcamel : camelCase "http2_x0_v42" = "http2X0V42" := by decide +kernel
  have hundoes := snakeCase_undoes hplain
  rw [hjoin, hpascal, hcamel] at hundoes
  exact ⟨hplain, hjoin, hpascal, hundoes.1, hcamel, hundoes.2⟩

-- words of one character run together
example : snakeCase (pascalCase "a_b") = "ab" := by decide +kernel

end Scaffold.Naming

namespace Scaffold.Template.Value

open Naming

/-! ## Stable cases -/

variable (l : Loans)

/-- A text through filters without arguments, one after the other. -/
def filtered (names : List String) (t : Text) : Result Value :=
  names.foldlM (fun v name => applyFilter l name v ⟨[], []⟩) (text t)

/-- The characters of a text, with a blank for each surrogate. -/
def spelled (t : Text) : List Char := t.map fun p => p.char?.getD ' '

theorem spelled_map_scalar (cs : List Char) : spelled (cs.map .scalar) = cs := by
  rw [spelled, List.map_map]
  exact List.map_id' cs

theorem spelled_of_chars? {t : Text} {cs : List Char} (h : t.chars? = some cs) :
    spelled t = cs := by
  rw [Text.eq_map_scalar_of_chars? h, spelled_map_scalar]

theorem recase_text (form : List Char → List Char) (t : Text) :
    recase form (text t) = .ok (text ((form (spelled t)).map .scalar)) := by
  simp only [recase, theText, bind, Except.bind]
  cases h : t.chars? with
  | none => rfl
  | some cs => rw [spelled_of_chars? h]

section
variable {l} {name next : String} {form form' : List Char → List Char}
  (hname : ∀ v, applyFilter l name v ⟨[], []⟩ = recase form v)
  (hnext : ∀ v, applyFilter l next v ⟨[], []⟩ = recase form' v)
include hname

theorem filtered_one (t : Text) :
    filtered l [name] t = .ok (text ((form (spelled t)).map .scalar)) := by
  rw [filtered, List.foldlM_cons, hname, recase_text]
  rfl

include hnext

theorem filtered_two (t : Text) :
    filtered l [name, next] t = .ok (text ((form' (form (spelled t))).map .scalar)) := by
  rw [filtered, List.foldlM_cons, hname, recase_text]
  show filtered l [next] ((form (spelled t)).map .scalar) = _
  rw [filtered_one hnext, spelled_map_scalar]

end

theorem applyFilter_snake (v : Value) :
    applyFilter l "snake_case" v ⟨[], []⟩ = recase snakeChars v := rfl

theorem applyFilter_pascal (v : Value) :
    applyFilter l "pascal_case" v ⟨[], []⟩ = recase pascalChars v := rfl

theorem applyFilter_camel (v : Value) :
    applyFilter l "camel_case" v ⟨[], []⟩ = recase camelChars v := rfl

end Scaffold.Template.Value

namespace Scaffold.Naming

open Template Template.Value

/-- **The cases are stable**: a name in one of them stays as it is, and Pascal and camel case do not
    depend on which of the two a name is in. The filters of templates obey the same laws, on every
    text and whatever has become of the lists given to them. -/
theorem cases_stable :
    (∀ x : String,
      snakeCase (snakeCase x) = snakeCase x ∧ pascalCase (pascalCase x) = pascalCase x ∧
      camelCase (camelCase x) = camelCase x ∧ pascalCase (camelCase x) = pascalCase x ∧
      camelCase (pascalCase x) = camelCase x) ∧
    ∀ (l : Loans) (t : Text), ∃ snake pascal camel,
      filtered l ["snake_case"] t = .ok (text snake) ∧
      filtered l ["snake_case", "snake_case"] t = .ok (text snake) ∧
      filtered l ["pascal_case"] t = .ok (text pascal) ∧
      filtered l ["pascal_case", "pascal_case"] t = .ok (text pascal) ∧
      filtered l ["camel_case", "pascal_case"] t = .ok (text pascal) ∧
      filtered l ["camel_case"] t = .ok (text camel) ∧
      filtered l ["camel_case", "camel_case"] t = .ok (text camel) ∧
      filtered l ["pascal_case", "camel_case"] t = .ok (text camel) := by
  constructor
  · intro x
    simp only [snakeCase, pascalCase, camelCase, String.toList_ofList, snakeChars_snakeChars,
      pascalChars_pascalChars, camelChars_camelChars, pascalChars_camelChars,
      camelChars_pascalChars, and_self]
  · intro l t
    refine ⟨(snakeChars (spelled t)).map .scalar, (pascalChars (spelled t)).map .scalar,
      (camelChars (spelled t)).map .scalar, ?_⟩
    have hsnake := applyFilter_snake l
    have hpascal := applyFilter_pascal l
    have hcamel := applyFilter_camel l
    simp only [filtered_one hsnake, filtered_one hpascal, filtered_one hcamel,
      filtered_two hsnake hsnake, filtered_two hpascal hpascal, filtered_two hcamel hpascal,
      filtered_two hcamel hcamel, filtered_two hpascal hcamel, snakeChars_snakeChars,
      pascalChars_pascalChars, camelChars_camelChars, pascalChars_camelChars,
      camelChars_pascalChars, and_self]

end Scaffold.Naming
