/-
  Error codes and their parts.

  * `Number.readInt_zeroPadded`: a number that is written with leading zeros, a minus sign in front
    of them, is read back.
  * `CodedError.tail?_code`: the first hyphen of a code is the one behind the owner, also where the
    number has a minus sign.
  * `CodedError.ofArea_decodes`: the parts of a code are those it was built from, so different areas
    or numbers have different codes.
-/
import Mathlib
import Scaffold.Failure.Code

namespace Scaffold

namespace Number

variable {cs : List Char} {n : Int}

/-! ## Digits -/

theorem range_of_isDigit {c : Char} (h : c.isDigit = true) : 48 ≤ c.toNat ∧ c.toNat ≤ 57 := by
  simpa [Char.isDigit, UInt32.le_iff_toNat_le] using h

theorem decimalValue?_of_isDigit {c : Char} (h : c.isDigit = true) :
    Text.decimalValue? c = some (c.toNat - '0'.toNat) := by
  have hc := range_of_isDigit h
  rw [Text.decimalValue?, Text.zeros, List.find?_cons_of_pos (by simp; omega)]
  rfl

theorem ne_low_line_of_isDigit {c : Char} (h : c.isDigit = true) : c ≠ '_' := by
  rintro rfl
  cases h

theorem readDigits_some (h : ∀ c ∈ cs, c.isDigit = true) (value : Nat) :
    readDigits (some value) false cs = some (Nat.ofDigitChars 10 cs value) := by
  induction cs generalizing value with
  | nil => rfl
  | cons c cs ih =>
    have hc := h c List.mem_cons_self
    have hlow : (c == '_') = false := beq_eq_false_iff_ne.2 (ne_low_line_of_isDigit hc)
    rw [readDigits, hlow, decimalValue?_of_isDigit hc, Nat.ofDigitChars_cons]
    exact ih (fun d hd => h d (List.mem_cons_of_mem c hd)) _

theorem readDigits_none (hne : cs ≠ []) (h : ∀ c ∈ cs, c.isDigit = true) :
    readDigits none false cs = some (Nat.ofDigitChars 10 cs 0) := by
  rw [← readDigits_some h 0]
  cases cs with
  | nil => exact absurd rfl hne
  | cons c cs => simp [readDigits, ne_low_line_of_isDigit (h c List.mem_cons_self)]

/-! ## Numbers -/

theorem isOuterBlank_of_isDigit {c : Char} (h : c.isDigit = true) : isOuterBlank c = false := by
  have hc := range_of_isDigit h
  have hapart : ∀ b ∈ Text.blanks, b.2 < 48 ∨ 57 < b.1 := by decide
  have hblank : Text.isBlank c = false := by
    rw [Bool.eq_false_iff, Text.isBlank, ne_eq, Ranges.contains_iff]
    rintro ⟨b, hb, hlo, hhi⟩
    have := hapart b hb
    omega
  rw [isOuterBlank, hblank, Bool.false_and]

/-- Digits are read as their value, and behind a minus sign as its negative. -/
theorem readInt_digits (hne : cs ≠ []) (h : ∀ c ∈ cs, c.isDigit = true)
    (hlength : cs.length ≤ maxDigits) :
    readInt cs = some (Nat.ofDigitChars 10 cs 0 : Int) ∧
      readInt ('-' :: cs) = some (-(Nat.ofDigitChars 10 cs 0 : Int)) := by
  have hlast : ∀ c ∈ cs.getLast?, isOuterBlank c = false := fun c hc =>
    isOuterBlank_of_isDigit (h c (List.mem_of_getLast? hc))
  have hfilter : cs.filter (· != '_') = cs :=
    List.filter_eq_self.2 fun c hc => bne_iff_ne.2 (ne_low_line_of_isDigit (h c hc))
  have hread := readDigits_none hne h
  obtain ⟨c, rest, rfl⟩ := List.exists_cons_of_ne_nil hne
  have hc := h c List.mem_cons_self
  have hminus : c ≠ '-' := by rintro rfl; cases hc
  have hplus : c ≠ '+' := by rintro rfl; cases hc
  have hself : Text.trimBy isOuterBlank (c :: rest) = c :: rest :=
    Text.trimBy_eq_self (by simpa using isOuterBlank_of_isDigit hc) hlast
  have hsigned : Text.trimBy isOuterBlank ('-' :: c :: rest) = '-' :: c :: rest :=
    Text.trimBy_eq_self (by simp; decide) (by rwa [List.getLast?_cons_cons])
  constructor
  · simpa [readInt, hself, hfilter, hread, hminus, hplus] using hlength
  · simpa [readInt, hsigned, hfilter, hread] using hlength

/-- Zeros in front of a number change neither that it is digits nor its value. -/
theorem padded_digits (k m : Nat) :
    (∀ c ∈ List.replicate k '0' ++ digits m, c.isDigit = true) ∧
      Nat.ofDigitChars 10 (List.replicate k '0' ++ digits m) 0 = m := by
  constructor
  · intro c hc
    rcases List.mem_append.1 hc with hc | hc
    · rw [List.eq_of_mem_replicate hc]
      rfl
    · exact Nat.isDigit_of_mem_toDigits (by omega) (by omega) hc
  · rw [Nat.ofDigitChars_append, Nat.ofDigitChars_replicate_zero, Nat.mul_zero]
    exact Nat.ofDigitChars_ten_toDigits

theorem readInt_zeroPadded {width : Nat} (hwidth : width ≤ maxDigits)
    (hn : (digits n.natAbs).length ≤ maxDigits) : readInt (zeroPadded width n) = some n := by
  have hread : ∀ k ≤ maxDigits - (digits n.natAbs).length,
      readInt (List.replicate k '0' ++ digits n.natAbs) = some (n.natAbs : Int) ∧
        readInt ('-' :: (List.replicate k '0' ++ digits n.natAbs)) = some (-(n.natAbs : Int)) := by
    intro k hk
    obtain ⟨hdigits, hvalue⟩ := padded_digits k n.natAbs
    have hne : List.replicate k '0' ++ digits n.natAbs ≠ [] :=
      List.append_ne_nil_of_right_ne_nil _ Nat.toDigits_ne_nil
    have hlength : (List.replicate k '0' ++ digits n.natAbs).length ≤ maxDigits := by
      rw [List.length_append, List.length_replicate]
      omega
    have := readInt_digits hne hdigits hlength
    rwa [hvalue] at this
  unfold zeroPadded
  split
  · next hneg =>
    rw [(hread _ (by omega)).2, Int.ofNat_natAbs_of_nonpos (by omega), neg_neg]
  · next hpos =>
    rw [(hread _ (by omega)).1, Int.natAbs_of_nonneg (by omega)]

end Number

/-! ## Codes -/

namespace CodedError

theorem ne_hyphen_of_owner (a : Area) : ∀ c ∈ a.owner.toList, (c != '-') = true := by
  cases a <;> simp [Area.owner]

theorem toList_code (a : Area) (n : Int) :
    (a.code n).toList = a.owner.toList ++ '-' :: a.letter :: Number.zeroPadded 3 n :=
  String.toList_ofList

theorem takeWhile_code (a : Area) (n : Int) :
    (a.code n).toList.takeWhile (· != '-') = a.owner.toList := by
  rw [toList_code, List.takeWhile_append_of_pos (ne_hyphen_of_owner a),
    List.takeWhile_cons_of_neg (by simp), List.append_nil]

theorem tail?_code (a : Area) (n : Int) :
    tail? (a.code n).toList = some (a.letter :: Number.zeroPadded 3 n) := by
  rw [tail?, toList_code, List.dropWhile_append_of_pos (ne_hyphen_of_owner a),
    List.dropWhile_cons_of_neg (by simp)]

theorem letter_injective {a b : Area} (h : a.letter = b.letter) : a = b := by
  cases a <;> cases b <;> first | rfl | exact absurd h (by decide)

/-- **A code has the parts that it was built from:** the owner and the letter of its area and its
    number, of either sign. So no two areas or numbers share a code. -/
theorem ofArea_decodes (a : Area) {n : Int} (hn : (Nat.toDigits 10 n.natAbs).length ≤ 4300)
    (message : String) (details : List (String × Json)) :
    (ofArea a n message details).owner = a.owner ∧
      (ofArea a n message details).letter = .ok (String.singleton a.letter) ∧
      (ofArea a n message details).number = .ok n ∧
      ∀ (b : Area) (m : Int) (message' : String) (details' : List (String × Json)),
        (Nat.toDigits 10 m.natAbs).length ≤ 4300 →
        (ofArea b m message' details').code = (ofArea a n message details).code →
        b = a ∧ m = n := by
  have hread : ∀ {m : Int}, (Nat.toDigits 10 m.natAbs).length ≤ 4300 →
      Number.readInt (Number.zeroPadded 3 m) = some m :=
    Number.readInt_zeroPadded (by decide)
  refine ⟨?_, ?_, ?_, ?_⟩
  · rw [owner, ofArea, takeWhile_code, String.ofList_toList]
  · rw [letter, ofArea, tail?_code]
  · simp only [number, ofArea, tail?_code, List.tail_cons, hread hn]
  · intro b m _ _ hm hcode
    have htail : tail? (b.code m).toList = tail? (a.code n).toList := by
      simp only [ofArea] at hcode
      rw [hcode]
    rw [tail?_code, tail?_code, Option.some.injEq, List.cons.injEq] at htail
    refine ⟨letter_injective htail.1, ?_⟩
    have hsame := hread hm
    rw [htail.2, hread hn] at hsame
    exact (Option.some.inj hsame).symm

theorem ofArea_decodes_minus :
    (Nat.toDigits 10 (-5 : Int).natAbs).length ≤ 4300 ∧ Area.generator.code (-5) = "AXE-G-05" ∧
      (ofArea .generator (-5) "late" []).owner = "AXE" ∧
      (ofArea .generator (-5) "late" []).letter = .ok (String.singleton 'G') ∧
      (ofArea .generator (-5) "late" []).number = .ok (-5) := by
  have hdigits : (Nat.toDigits 10 (-5 : Int).natAbs).length ≤ 4300 := by decide
  obtain ⟨howner, hletter, hnumber, -⟩ := ofArea_decodes .generator hdigits "late" []
  exact ⟨hdigits, by decide +kernel, howner, hletter, hnumber⟩

end CodedError

end Scaffold
