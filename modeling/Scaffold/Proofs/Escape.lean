/-
  Escapes that stand in sources have a value: `decodeEscape_cases`.

  The lexical level takes four forms of text for an escape (`EscapeForm`, `form_of_isEscape`). Each
  of them has a value, unless it is a number in braces beyond the last code point. Read byte by
  byte, an escape fails only for a second backslash or for a number that lacks digits
  (`exists_unescape`), and none of the forms has these.
-/
import Mathlib
import Scaffold.Contract.Escape
import Scaffold.Proofs.Trees
import Scaffold.Proofs.Utf8

namespace Scaffold

namespace CodePoint

theorem is_iff {p : CodePoint} {c : Char} : p.is c = true ↔ p = .scalar c := by
  cases p with
  | scalar d =>
    rw [is, beq_iff_eq, scalar.injEq]
    exact eq_comm
  | surrogate n => simp [is]

theorem exists_ofNat? {n : Nat} (h : n ≤ 0x10FFFF) : ∃ p, ofNat? n = some p := by
  rw [ofNat?, if_pos h]
  split
  · exact ⟨_, rfl⟩
  · exact ⟨_, rfl⟩

end CodePoint

namespace Text

theorem scalar_map_inj {cs ds : List Char} :
    cs.map CodePoint.scalar = ds.map CodePoint.scalar ↔ cs = ds :=
  List.map_inj_right fun _ _ h => CodePoint.scalar.inj h

theorem after?_eq_some {cs : List Char} {t rest : Text} (h : after? cs t = some rest) :
    t = cs.map .scalar ++ rest := by
  induction cs generalizing t with
  | nil => cases h; rfl
  | cons c cs ih =>
    cases t with
    | nil => cases h
    | cons p t =>
      simp only [after?, Option.ite_none_right_eq_some] at h
      rw [CodePoint.is_iff.1 h.1, ih h.2]
      rfl

theorem countWhile_le (test : Char → Bool) (t : Text) : countWhile test t ≤ t.length := by
  induction t with
  | nil => exact le_refl 0
  | cons p t ih =>
    cases p with
    | surrogate n => exact Nat.zero_le _
    | scalar c =>
      unfold countWhile
      split
      · exact Nat.succ_le_succ ih
      · exact Nat.zero_le _

/-- The code points that are counted are characters that satisfy the test. -/
theorem take_of_le_countWhile {test : Char → Bool} {t : Text} {n : Nat}
    (h : n ≤ countWhile test t) :
    ∃ cs : List Char, cs.length = n ∧ t.take n = cs.map .scalar ∧ ∀ c ∈ cs, test c = true := by
  induction t generalizing n with
  | nil =>
    obtain rfl : n = 0 := Nat.le_zero.1 h
    exact ⟨[], rfl, rfl, by simp⟩
  | cons p t ih =>
    cases n with
    | zero => exact ⟨[], rfl, rfl, by simp⟩
    | succ n =>
      cases p with
      | surrogate s => simp [countWhile] at h
      | scalar c =>
        unfold countWhile at h
        split at h
        · next hc =>
          obtain ⟨cs, hlen, htake, hall⟩ := ih (Nat.le_of_succ_le_succ h)
          refine ⟨c :: cs, by simp [hlen], by simp [htake], fun d hd => ?_⟩
          rcases List.mem_cons.1 hd with rfl | hd
          · exact hc
          · exact hall d hd
        · omega

end Text

namespace Contract

open Source

/-! ## The forms of escapes -/

/-- The texts that are taken for escapes: two digits behind `x`, four digits or digits in braces
    behind `u`, and anything without another backslash behind the rest. -/
inductive EscapeForm : List Char → Prop
  | byte {ds : List Char} : ds.length = 2 → (∀ d ∈ ds, Text.isHexDigit d = true) →
      EscapeForm ('\\' :: 'x' :: ds)
  | unit {ds : List Char} : ds.length = 4 → (∀ d ∈ ds, Text.isHexDigit d = true) →
      EscapeForm ('\\' :: 'u' :: ds)
  | braced {ds : List Char} : ds ≠ [] → (∀ d ∈ ds, Text.isHexDigit d = true) →
      EscapeForm ('\\' :: 'u' :: '\x7b' :: (ds ++ ['\x7d']))
  | plain {c : Char} {rest : List Char} : c ≠ 'x' → c ≠ 'u' → '\\' ∉ rest →
      EscapeForm ('\\' :: c :: rest)

theorem form_of_scanUnicodeEscape {cs : List Char} {t : Text} {n : Nat}
    (h : scanUnicodeEscape t = some n) (hcs : cs.map .scalar = t.take n) : EscapeForm cs := by
  simp only [scanUnicodeEscape] at h
  split at h
  · next rest hr =>
    split at h
    · next hn =>
      cases h
      simp only [Bool.and_eq_true, bne_iff_ne, Text.startsWith, Option.isSome_iff_exists] at hn
      obtain ⟨hn, after, ha⟩ := hn
      obtain ⟨ds, hlen, htake, hds⟩ :=
        Text.take_of_le_countWhile (le_refl (Text.countWhile Text.isHexDigit rest))
      have hrest : rest = ds.map .scalar ++ (.scalar '\x7d' :: after) := by
        rw [← htake]
        conv_lhs => rw [← List.take_append_drop (Text.countWhile Text.isHexDigit rest) rest,
          Text.after?_eq_some ha]
        rfl
      have : cs = '\\' :: 'u' :: '\x7b' :: (ds ++ ['\x7d']) := by
        rw [← Text.scalar_map_inj, hcs, Text.after?_eq_some hr, ← hlen, hrest]
        simp [List.take_append]
      rw [this]
      refine .braced (fun hd => hn ?_) hds
      rw [← hlen, hd, List.length_nil]
    · cases h
  · split at h
    · next rest hr =>
      split at h
      · next hn =>
        cases h
        obtain ⟨ds, hlen, htake, hds⟩ := Text.take_of_le_countWhile hn
        rw [List.take_take, Nat.min_self] at htake
        have : cs = '\\' :: 'u' :: ds := by
          rw [← Text.scalar_map_inj, hcs, Text.after?_eq_some hr]
          simp [htake]
        exact this ▸ .unit hlen hds
      · cases h
    · cases h

/-- A character behind the backslash, and what is taken with it. -/
theorem form_of_plain {cs : List Char} {p : CodePoint} {rest : Text} {k : Nat}
    (hx : ¬ p.is 'x' = true) (hu : ¬ p.is 'u' = true)
    (hk : cs.map .scalar = (CodePoint.scalar '\\' :: p :: rest).take (k + 2))
    (hrest : CodePoint.scalar '\\' ∉ rest.take k) : EscapeForm cs := by
  cases cs with
  | nil => cases hk
  | cons b cs =>
    cases cs with
    | nil => cases hk
    | cons c cs =>
      simp only [List.map_cons, List.take_succ_cons, List.cons.injEq,
        CodePoint.scalar.injEq] at hk
      obtain ⟨rfl, rfl, hk⟩ := hk
      refine .plain ?_ ?_ fun hm => hrest (hk ▸ List.mem_map_of_mem hm)
      · rintro rfl
        exact hx (CodePoint.is_iff.2 rfl)
      · rintro rfl
        exact hu (CodePoint.is_iff.2 rfl)

/-- No backslash is among characters that are counted, if it does not satisfy the test. -/
theorem backslash_not_counted {test : Char → Bool} (ht : test '\\' = false) {n : Nat} (t : Text) :
    CodePoint.scalar '\\' ∉ t.take (Text.countWhile test (t.take n)) := by
  obtain ⟨ds, -, htake, hds⟩ :=
    Text.take_of_le_countWhile (le_refl (Text.countWhile test (t.take n)))
  have hle : Text.countWhile test (t.take n) ≤ n :=
    (Text.countWhile_le test (t.take n)).trans (List.length_take_le n t)
  rw [List.take_take, Nat.min_eq_left hle] at htake
  rw [htake]
  intro hm
  obtain ⟨d, hd, he⟩ := List.mem_map.1 hm
  cases he
  simp [hds _ hd] at ht

/-- What the lexical level takes for an escape has one of the forms. -/
theorem form_of_isEscape {cs : List Char} (h : IsEscape (cs.map .scalar)) : EscapeForm cs := by
  obtain ⟨t, n, hn, hcs⟩ := h
  unfold scanEscape at hn
  split at hn
  · next b p rest =>
    split at hn
    · cases hn
    next hb =>
    obtain rfl := CodePoint.is_iff.1 (by simpa using hb)
    split at hn
    · next hp =>
      obtain rfl := CodePoint.is_iff.1 hp
      split at hn
      · next hc =>
        cases hn
        obtain ⟨ds, hlen, htake, hds⟩ := Text.take_of_le_countWhile (beq_iff_eq.1 hc).ge
        rw [List.take_take, Nat.min_self] at htake
        have : cs = '\\' :: 'x' :: ds := by
          rw [← Text.scalar_map_inj, hcs]
          simp [htake]
        exact this ▸ .byte hlen hds
      · cases hn
    next hx =>
    split at hn
    · exact form_of_scanUnicodeEscape hn hcs
    next hu =>
    -- the other forms: a character and at most two more, none of them a backslash
    split at hn
    · cases hn
      exact form_of_plain hx hu hcs (backslash_not_counted rfl rest)
    split at hn
    · next hline =>
      cases hn
      refine form_of_plain hx hu hcs fun hm => ?_
      simp only [Bool.and_eq_true] at hline
      cases rest with
      | nil => cases hm
      | cons q rest =>
        simp only [List.take_succ_cons, List.take_zero, List.mem_singleton] at hm
        subst hm
        simp [Text.headIs] at hline
    · cases hn
      exact form_of_plain hx hu hcs (by simp)
  · cases hn

/-! ## Escapes read byte by byte -/

theorem exists_unescapeFrom {bytes : List UInt8} {skip : Nat} (start : Nat)
    (h : ∀ b ∈ bytes.drop skip, b ≠ 92) : ∃ value, unescapeFrom start skip bytes = .ok value := by
  induction bytes generalizing start skip with
  | nil => exact ⟨[], rfl⟩
  | cons b bytes ih =>
    cases skip with
    | succ k => exact ih (start + 1) h
    | zero =>
      have hb : (b != 92) = true := bne_iff_ne.2 (h b (by simp))
      obtain ⟨more, hmore⟩ := @ih 0 (start + 1) fun c hc => h c (List.mem_cons_of_mem b hc)
      refine ⟨latin [b] ++ more, ?_⟩
      unfold unescapeFrom
      simp only [if_pos hb, hmore]

theorem octal_used (count : Nat) {b : UInt8} (bytes : List UInt8) (h : (48 ≤ b && b ≤ 55) = true) :
    1 ≤ (octal (count + 1) (b :: bytes)).2 := by
  rw [octal, if_pos h]
  exact Nat.succ_le_succ (Nat.zero_le _)

/-- Behind its backslash an escape by number needs a number, and anything else has a value. -/
theorem exists_unescape {c : UInt8} {rest : List UInt8} (hrest : ∀ b ∈ rest, b ≠ 92)
    (hx : c = 120 → ∃ p, numberEscape 0 2 .twoDigits rest = .ok p)
    (hu : c = 117 → ∃ p, numberEscape 0 4 .fourDigits rest = .ok p)
    (hU : c ≠ 85) (hN : c ≠ 78) : ∃ value, unescape (92 :: c :: rest) = .ok value := by
  -- whatever an escape puts, it takes in the byte behind the backslash
  have more (used : Nat) (hused : 1 ≤ used) :
      ∃ value, unescapeFrom 1 used (c :: rest) = .ok value := by
    refine exists_unescapeFrom 1 fun b hb => ?_
    obtain ⟨used, rfl⟩ := Nat.exists_eq_add_of_le' hused
    exact hrest b (List.drop_subset _ _ hb)
  obtain ⟨after, hone⟩ := more 1 (le_refl 1)
  have h92 : ¬ ((92 : UInt8) != 92) = true := by simp
  rw [unescape, unescapeFrom]
  simp only [if_neg h92, Nat.zero_add]
  split
  · simp only [hone]
    exact ⟨_, rfl⟩
  split
  · next hc =>
    obtain ⟨after, hmore⟩ := more _ (octal_used 2 rest hc)
    simp only [hmore]
    exact ⟨_, rfl⟩
  split
  · next hc =>
    obtain ⟨p, hp⟩ := hx (beq_iff_eq.1 hc)
    obtain ⟨after, hmore⟩ := more (2 + 1) (by omega)
    simp only [hp, hmore]
    exact ⟨_, rfl⟩
  split
  · next hc =>
    obtain ⟨p, hp⟩ := hu (beq_iff_eq.1 hc)
    obtain ⟨after, hmore⟩ := more (4 + 1) (by omega)
    simp only [hp, hmore]
    exact ⟨_, rfl⟩
  rw [if_neg (by simpa using hU), if_neg (by simpa using hN)]
  simp only [hone]
  split <;> exact ⟨_, rfl⟩

/-! ## Numbers -/

theorem hexValue?_cases {c : Char} {d : Nat} (h : Text.hexValue? c = some d) :
    d < 16 ∧ (48 ≤ c.toNat ∧ c.toNat ≤ 57 ∨ 97 ≤ c.toNat ∧ c.toNat ≤ 102 ∨
      65 ≤ c.toNat ∧ c.toNat ≤ 70) := by
  have hle (a b : Char) : a ≤ b ↔ a.toNat ≤ b.toNat := by
    rw [Char.le_def, UInt32.le_iff_toNat_le]
    rfl
  simp only [Text.hexValue?, Bool.and_eq_true, decide_eq_true_eq, hle, Char.reduceToNat] at h
  split at h
  · cases h; omega
  split at h
  · cases h; omega
  split at h
  · cases h; omega
  · cases h

/-- A character of ASCII is its byte; the bytes of any other lie above ASCII. -/
theorem encodeChar_ascii (c : Char) :
    (∃ b, Utf8.encodeChar c = [b] ∧ b.toNat = c.toNat) ∨
      (0x80 ≤ c.toNat ∧ ∃ b bs, Utf8.encodeChar c = b :: bs ∧ ∀ x ∈ b :: bs, 0x80 ≤ x.toNat) := by
  rcases Utf8.encodeChar_cases c with ⟨b, he, hb, -⟩ | ⟨b₀, b₁, he, h₀, h₁, hge, hlt⟩ |
    ⟨b₀, b₁, b₂, he, h₀, h₁, h₂, hge, hlt⟩ | ⟨b₀, b₁, b₂, b₃, he, h₀, h₁, h₂, h₃, hge, hlt⟩
  · exact Or.inl ⟨b, he, hb⟩
  all_goals
    refine Or.inr ⟨by omega, _, _, he, ?_⟩
    simp only [List.forall_mem_cons]
    simp
    omega

theorem encodeChar_of_isHexDigit {c : Char} (h : Text.isHexDigit c = true) :
    ∃ b, Utf8.encodeChar c = [b] ∧ b.toNat = c.toNat := by
  obtain ⟨d, hd⟩ := Option.isSome_iff_exists.1 h
  have hc := (hexValue?_cases hd).2
  rcases encodeChar_ascii c with hb | ⟨hge, -⟩
  · exact hb
  · omega

theorem hexNumber_concat (ds : List Char) (d : Char) :
    Text.hexNumber (ds ++ [d]) = 16 * Text.hexNumber ds + (Text.hexValue? d).getD 0 := by
  simp [Text.hexNumber]

theorem hexNumber_lt (ds : List Char) : Text.hexNumber ds < 16 ^ ds.length := by
  induction ds using List.reverseRecOn with
  | nil => decide
  | append_singleton ds d ih =>
    have hd : (Text.hexValue? d).getD 0 < 16 := by
      cases hv : Text.hexValue? d with
      | none => decide
      | some v => exact (hexValue?_cases hv).1
    rw [hexNumber_concat, List.length_append, List.length_singleton, pow_succ]
    omega

/-- Read byte by byte, digits spell their number. -/
theorem hexRun_encode {ds : List Char} (hds : ∀ d ∈ ds, Text.isHexDigit d = true) :
    hexRun 0 ds.length (Utf8.encode ds) = .ok (Text.hexNumber ds) := by
  have hfrom (acc : Nat) : hexRun acc ds.length (Utf8.encode ds) =
      .ok (ds.foldl (fun n c => 16 * n + (Text.hexValue? c).getD 0) acc) := by
    induction ds generalizing acc with
    | nil => rfl
    | cons d ds ih =>
      have hd := hds d (by simp)
      obtain ⟨b, hb, hbd⟩ := encodeChar_of_isHexDigit hd
      obtain ⟨v, hv⟩ := Option.isSome_iff_exists.1 hd
      have he : Utf8.encode (d :: ds) = b :: Utf8.encode ds := by
        simp [Utf8.encode, List.flatMap_cons, hb]
      rw [he, List.length_cons, hexRun, hbd, Char.ofNat_toNat]
      simp only [hv, ih fun c hc => hds c (List.mem_cons_of_mem d hc), List.foldl_cons,
        Option.getD_some]
  exact hfrom 0

theorem exists_numberEscape {ds : List Char} (hds : ∀ d ∈ ds, Text.isHexDigit d = true)
    (hlen : ds.length ≤ 4) (start : Nat) (gap : EscapeGap) :
    ∃ p, numberEscape start ds.length gap (Utf8.encode ds) = .ok p := by
  have hlt := hexNumber_lt ds
  have hpow : 16 ^ ds.length ≤ 16 ^ 4 := Nat.pow_le_pow_right (by omega) hlen
  obtain ⟨p, hp⟩ := CodePoint.exists_ofNat? (n := Text.hexNumber ds) (by omega)
  exact ⟨p, by simp only [numberEscape, hexRun_encode hds, hp]⟩

/-! ## The value of an escape -/

theorem encode_ne_backslash {cs : List Char} (h : '\\' ∉ cs) : ∀ b ∈ Utf8.encode cs, b ≠ 92 := by
  intro b hb he
  obtain ⟨c, hc, hb⟩ := List.mem_flatMap.1 hb
  have hb92 : b.toNat = 92 := by rw [he]; rfl
  rcases encodeChar_ascii c with ⟨b', hc', hb'⟩ | ⟨-, b', bs, hc', hge⟩
  · rw [hc', List.mem_singleton] at hb
    rw [hb, hb'] at hb92
    exact h (by rwa [← Char.ofNat_toNat c, hb92] at hc)
  · rw [hc'] at hb
    have := hge b hb
    omega

theorem isHexDigit_ne {ds : List Char} (h : ∀ d ∈ ds, Text.isHexDigit d = true) {c : Char}
    (hc : Text.isHexDigit c = false) : c ∉ ds :=
  fun hm => by simp [h c hm] at hc

theorem bracedDigits?_braced {ds : List Char} (hne : ds ≠ [])
    (hds : ∀ d ∈ ds, Text.isHexDigit d = true) :
    bracedDigits? ('\\' :: 'u' :: '\x7b' :: (ds ++ ['\x7d'])) = some ds := by
  have hall : ds.reverse.all Text.isHexDigit = true := by simpa using hds
  simp [bracedDigits?, hne, hall]

theorem bracedDigits?_eq_none {c : Char} {rest : List Char} (h : c = 'u' → '\x7b' ∉ rest) :
    bracedDigits? ('\\' :: c :: rest) = none := by
  unfold bracedDigits?
  split
  · next hcs =>
    simp only [List.cons.injEq, true_and] at hcs
    obtain ⟨rfl, rfl⟩ := hcs
    simp at h
  · rfl

/-- Letters with a meaning and digits are read byte by byte. -/
theorem decodeEscape_eq_unescape {c : Char} {rest : List Char}
    (hno : bracedDigits? ('\\' :: c :: rest) = none)
    (hc : isEscapeLetter c = true ∨ Text.isDigit c = true) :
    decodeEscape ('\\' :: c :: rest) =
      unescape (92 :: (Utf8.encodeChar c ++ Utf8.encode rest)) := by
  have hline : ¬ (c == '\n' || c == '\r') = true := by
    simp only [Bool.or_eq_true, beq_iff_eq]
    rintro (rfl | rfl)
    · exact absurd hc (by decide)
    · exact absurd hc (by decide)
  have hmeaning : ¬ (!isEscapeLetter c && !Text.isDigit c) = true := by
    rcases hc with hc | hc <;> simp [hc]
  simp only [decodeEscape, hno, if_neg hline, if_neg hmeaning]
  rfl

theorem exists_unescape_char {c : Char} {rest : List Char} (hx : c ≠ 'x') (hu : c ≠ 'u')
    (hU : c ≠ 'U') (hN : c ≠ 'N') (hrest : '\\' ∉ rest) :
    ∃ value, unescape (92 :: (Utf8.encodeChar c ++ Utf8.encode rest)) = .ok value := by
  have hbytes := encode_ne_backslash hrest
  rcases encodeChar_ascii c with ⟨b, he, hb⟩ | ⟨-, b, bs, he, hge⟩
  · have hne {d : Char} {n : UInt8} (hd : n.toNat = d.toNat) (hcd : c ≠ d) : b ≠ n := by
      rintro rfl
      exact hcd (by rw [← Char.ofNat_toNat c, ← hb, hd, Char.ofNat_toNat])
    rw [he]
    exact exists_unescape hbytes (fun h => absurd h (hne (d := 'x') rfl hx))
      (fun h => absurd h (hne (d := 'u') rfl hu)) (hne (d := 'U') rfl hU) (hne (d := 'N') rfl hN)
  · have hb := hge b (by simp)
    have hne {n : UInt8} (hn : n.toNat < 0x80) : b ≠ n := by
      rintro rfl
      omega
    rw [he, List.cons_append]
    refine exists_unescape (fun x hx => ?_) (fun h => absurd h (hne (by decide)))
      (fun h => absurd h (hne (by decide))) (hne (by decide)) (hne (by decide))
    rcases List.mem_append.1 hx with hx | hx
    · rintro rfl
      exact absurd (hge 92 (by simp [hx])) (by decide)
    · exact hbytes x hx

/-- **Escapes have a value**, unless they are numbers beyond the last code point. -/
theorem decodeEscape_cases {cs : List Char} (h : EscapeForm cs) :
    (∃ value, decodeEscape cs = .ok value) ∨
      ∃ digits, bracedDigits? cs = some digits ∧ 0x10FFFF < Text.hexNumber digits := by
  cases h with
  | @byte ds hlen hds =>
    left
    rw [decodeEscape_eq_unescape (bracedDigits?_eq_none (by simp)) (Or.inl rfl)]
    refine exists_unescape (c := 120) (encode_ne_backslash (isHexDigit_ne hds rfl)) (fun _ => ?_)
      (by simp) (by simp) (by simp)
    exact hlen ▸ exists_numberEscape hds (by omega) 0 .twoDigits
  | @unit ds hlen hds =>
    left
    have hno : bracedDigits? ('\\' :: 'u' :: ds) = none :=
      bracedDigits?_eq_none fun _ => isHexDigit_ne hds rfl
    rw [decodeEscape_eq_unescape hno (Or.inl rfl)]
    refine exists_unescape (c := 117) (encode_ne_backslash (isHexDigit_ne hds rfl)) (by simp)
      (fun _ => ?_) (by simp) (by simp)
    exact hlen ▸ exists_numberEscape hds (by omega) 0 .fourDigits
  | @braced ds hne hds =>
    rcases Nat.lt_or_ge 0x10FFFF (Text.hexNumber ds) with hlt | hle
    · exact Or.inr ⟨ds, bracedDigits?_braced hne hds, hlt⟩
    · left
      obtain ⟨p, hp⟩ := CodePoint.exists_ofNat? hle
      have hsmall : ¬ Text.hexNumber ds > 0x7FFFFFFF := by omega
      refine ⟨[p], ?_⟩
      simp only [decodeEscape, bracedDigits?_braced hne hds, codePoint, if_neg hsmall, hp]
      rfl
  | @plain c rest hx hu hrest =>
    left
    have hno : bracedDigits? ('\\' :: c :: rest) = none :=
      bracedDigits?_eq_none fun hc => absurd hc hu
    by_cases hc : isEscapeLetter c = true ∨ Text.isDigit c = true
    · rw [decodeEscape_eq_unescape hno hc]
      refine exists_unescape_char hx hu ?_ ?_ hrest
      · rintro rfl
        exact absurd hc (by decide)
      · rintro rfl
        exact absurd hc (by decide)
    · simp only [not_or, Bool.not_eq_true] at hc
      simp only [decodeEscape, hno, hc.1, hc.2]
      split <;> exact ⟨_, rfl⟩

end Contract

end Scaffold
