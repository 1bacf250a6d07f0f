/-
  The value of an escape, as the language of interface definitions defines it.

  * `Numeral ds n`: digits of base sixteen, in either case, spell a number.
  * `Spells e n`: an escape names a code point by its number, in one of three forms.
  * `EscapeValue e v`: the value of an escape; escapes by digits other than a lone zero have none.
  * `Misread e w`: the escapes that `decodeEscape` takes for something else, and what it takes them
    for: the two separators of lines and paragraphs, and the digits beyond ASCII.

  `decodeEscape_value`: an escape has the value that the language gives it exactly when it is not
  misread, and all spellings of one code point have the same value.
-/
import Mathlib
import Scaffold.Proofs.Escape

namespace Scaffold

namespace CodePoint

theorem toNat_of_ofNat? {n : Nat} {p : CodePoint} (h : ofNat? n = some p) : p.toNat = n := by
  unfold ofNat? at h
  split at h
  · next hn =>
    cases h
    simp only [toNat]
    omega
  · next hn =>
    split at h
    · next hle =>
      cases h
      have hvalid : n.isValidChar := by
        simp only [Nat.isValidChar]
        omega
      simp [toNat, Char.ofNat, hvalid, Char.toNat, Char.ofNatAux]
    · cases h

theorem toNat_injective : Function.Injective toNat := by
  intro p q h
  cases p with
  | scalar c =>
    have hc := Utf8.char_range c
    cases q with
    | scalar d => rw [Char.toNat_inj.1 h]
    | surrogate m =>
      have hm := m.isLt
      simp only [toNat] at h
      omega
  | surrogate n =>
    have hn := n.isLt
    cases q with
    | scalar d =>
      have hd := Utf8.char_range d
      simp only [toNat] at h
      omega
    | surrogate m =>
      simp only [toNat] at h
      rw [Fin.ext (by omega : n.val = m.val)]

theorem toNat_le (p : CodePoint) : p.toNat ≤ 0x10FFFF := by
  cases p with
  | scalar c =>
    have := Utf8.char_range c
    simp only [toNat]
    omega
  | surrogate n =>
    have := n.isLt
    simp only [toNat]
    omega

/-- Every code point is the one of its number. -/
theorem ofNat?_toNat (p : CodePoint) : ofNat? p.toNat = some p := by
  obtain ⟨q, hq⟩ := exists_ofNat? p.toNat_le
  rw [hq, toNat_injective (toNat_of_ofNat? hq)]

end CodePoint

namespace Contract

/-! ## The values that the language defines -/

/-- A digit of base sixteen in either case, and its value. -/
def IsDigitOf (d : Char) (v : Nat) : Prop :=
  v < 16 ∧ (d = Text.hexDigit v ∨ d = (Text.hexDigit v).toUpper)

/-- Digits of base sixteen and the number that they spell. -/
inductive Numeral : List Char → Nat → Prop
  | nil : Numeral [] 0
  | snoc {ds : List Char} {n v : Nat} {d : Char} :
      Numeral ds n → IsDigitOf d v → Numeral (ds ++ [d]) (16 * n + v)

/-- An escape that names a code point by its number: digits in braces, four digits or two. -/
inductive Spells : List Char → Nat → Prop
  | braced {ds : List Char} {n : Nat} : ds ≠ [] → Numeral ds n → n ≤ 0x10FFFF →
      Spells ('\\' :: 'u' :: '\x7b' :: (ds ++ ['\x7d'])) n
  | four {ds : List Char} {n : Nat} : ds.length = 4 → Numeral ds n → Spells ('\\' :: 'u' :: ds) n
  | two {ds : List Char} {n : Nat} : ds.length = 2 → Numeral ds n → Spells ('\\' :: 'x' :: ds) n

/-- The letters and marks with a meaning of their own behind a backslash. -/
def marks : List (Char × Char) :=
  [('b', '\x08'), ('f', '\x0c'), ('n', '\n'), ('r', '\r'), ('t', '\t'), ('v', '\x0b'),
   ('\\', '\\'), ('\'', '\''), ('"', '"')]

/-- The line separator, `U+2028`. -/
def lineSeparator : Char := Char.ofNat 0x2028

/-- The paragraph separator, `U+2029`. -/
def paragraphSeparator : Char := Char.ofNat 0x2029

/-- What ends a line. -/
def lineEnds : List (List Char) :=
  [['\n'], ['\r'], ['\r', '\n'], [lineSeparator], [paragraphSeparator]]

/-- The value of an escape. -/
inductive EscapeValue : List Char → Text → Prop
  | number {e : List Char} {p : CodePoint} : Spells e p.toNat → EscapeValue e [p]
  | zero : EscapeValue ['\\', '0'] [.scalar (Char.ofNat 0)]
  | mark {c d : Char} : (c, d) ∈ marks → EscapeValue ['\\', c] [.scalar d]
  | lineEnd {cs : List Char} : cs ∈ lineEnds → EscapeValue ('\\' :: cs) []
  | self {c : Char} : Text.isAsciiDigit c = false → c ≠ 'x' → c ≠ 'u' →
      c ∉ marks.map Prod.fst → [c] ∉ lineEnds → EscapeValue ['\\', c] [.scalar c]

/-- The escapes that are taken for something else, and what they are taken for. -/
inductive Misread : List Char → Text → Prop
  | separator {c : Char} : c = lineSeparator ∨ c = paragraphSeparator →
      Misread ['\\', c] [.scalar c]
  | digit {c : Char} : 0x80 ≤ c.toNat → Text.isDigit c = true →
      Misread ['\\', c] (.scalar '\\' :: latin (Utf8.encodeChar c))

/-! ## Numbers -/

theorem hexValue?_of_isDigitOf {d : Char} {v : Nat} (h : IsDigitOf d v) :
    Text.hexValue? d = some v := by
  have hall : ∀ v < 16, Text.hexValue? (Text.hexDigit v) = some v ∧
      Text.hexValue? (Text.hexDigit v).toUpper = some v := by decide
  obtain ⟨hv, rfl | rfl⟩ := h
  · exact (hall v hv).1
  · exact (hall v hv).2

theorem Numeral.isHexDigit {ds : List Char} {n : Nat} (h : Numeral ds n) :
    ∀ d ∈ ds, Text.isHexDigit d = true := by
  induction h with
  | nil => simp
  | snoc _ hd ih =>
    intro c hc
    rcases List.mem_append.1 hc with hc | hc
    · exact ih c hc
    · rw [List.mem_singleton.1 hc, Text.isHexDigit, hexValue?_of_isDigitOf hd]
      rfl

theorem Numeral.hexNumber {ds : List Char} {n : Nat} (h : Numeral ds n) :
    Text.hexNumber ds = n := by
  induction h with
  | nil => rfl
  | snoc _ hd ih =>
    rw [hexNumber_concat, ih, hexValue?_of_isDigitOf hd]
    rfl

theorem Numeral.numberEscape {ds : List Char} {p : CodePoint} (h : Numeral ds p.toNat)
    (start : Nat) (gap : EscapeGap) :
    Contract.numberEscape start ds.length gap (Utf8.encode ds) = .ok p := by
  simp only [Contract.numberEscape, hexRun_encode h.isHexDigit, h.hexNumber,
    CodePoint.ofNat?_toNat]

theorem length_encode_of_isHexDigit {ds : List Char} (h : ∀ d ∈ ds, Text.isHexDigit d = true) :
    (Utf8.encode ds).length = ds.length := by
  induction ds with
  | nil => rfl
  | cons d ds ih =>
    obtain ⟨b, hb, -⟩ := encodeChar_of_isHexDigit (h d (by simp))
    have := ih fun c hc => h c (List.mem_cons_of_mem d hc)
    simp only [Utf8.encode, List.flatMap_cons, List.length_append, hb] at this ⊢
    simp only [List.length_cons, List.length_nil]
    omega

/-! ## Bytes -/

/-- Bytes that belong to an escape already read give nothing more. -/
theorem unescapeFrom_skip {bytes : List UInt8} {start skip : Nat} (h : bytes.length ≤ skip) :
    unescapeFrom start skip bytes = .ok [] := by
  induction bytes generalizing start skip with
  | nil => rfl
  | cons b bytes ih =>
    cases skip with
    | zero => simp at h
    | succ k => exact ih (by simpa using h)

/-- Bytes beyond ASCII stand for themselves. -/
theorem unescapeFrom_latin {bytes : List UInt8} (start : Nat) (h : ∀ b ∈ bytes, 0x80 ≤ b.toNat) :
    unescapeFrom start 0 bytes = .ok (latin bytes) := by
  induction bytes generalizing start with
  | nil => rfl
  | cons b bytes ih =>
    have hb : (b != 92) = true := by
      rw [bne_iff_ne]
      rintro rfl
      exact absurd (h 92 (by simp)) (by decide)
    unfold unescapeFrom
    simp only [if_pos hb, ih (start + 1) fun c hc => h c (List.mem_cons_of_mem b hc)]
    rfl

theorem letterValue?_eq_none {b : UInt8} (h : 0x80 ≤ b.toNat) : letterValue? b = none := by
  have hall : ∀ b : UInt8, 0x80 ≤ b.toNat → letterValue? b = none := by decide +kernel
  exact hall b h

/-- A backslash before a byte beyond ASCII stands for itself. -/
theorem unescape_latin {b : UInt8} {bytes : List UInt8} (h : ∀ x ∈ b :: bytes, 0x80 ≤ x.toNat) :
    unescape (92 :: b :: bytes) = .ok (.scalar '\\' :: latin (b :: bytes)) := by
  have hb : 0x80 ≤ b.toNat := h b (by simp)
  have hne {n : UInt8} (hn : n.toNat < 0x80) : ¬ (b == n) = true := by
    rw [beq_iff_eq]
    rintro rfl
    omega
  have hoctal : ¬ (48 ≤ b && b ≤ 55) = true := by
    rw [Bool.and_eq_true, decide_eq_true_eq, decide_eq_true_eq, UInt8.le_iff_toNat_le,
      UInt8.le_iff_toNat_le]
    simp only [UInt8.reduceToNat]
    omega
  have hrest : unescapeFrom 1 1 (b :: bytes) = .ok (latin bytes) :=
    unescapeFrom_latin 2 fun x hx => h x (List.mem_cons_of_mem b hx)
  have h92 : ¬ ((92 : UInt8) != 92) = true := by simp
  rw [unescape, unescapeFrom]
  simp only [if_neg h92, Nat.zero_add, if_neg (hne (n := 10) (by decide)), if_neg hoctal,
    if_neg (hne (n := 120) (by decide)), if_neg (hne (n := 117) (by decide)),
    if_neg (hne (n := 85) (by decide)), if_neg (hne (n := 78) (by decide)),
    letterValue?_eq_none hb, hrest]
  rfl

/-! ## Escapes -/

/-- **An escape by number has the code point of that number.** -/
theorem Spells.decodeEscape {e : List Char} {p : CodePoint} (h : Spells e p.toNat) :
    Contract.decodeEscape e = .ok [p] := by
  cases h with
  | @braced ds _ hne hds hle =>
    have hsmall : ¬ p.toNat > 0x7FFFFFFF := by omega
    simp only [Contract.decodeEscape, bracedDigits?_braced hne hds.isHexDigit, hds.hexNumber,
      codePoint, if_neg hsmall, CodePoint.ofNat?_toNat]
    rfl
  | @four ds _ hlen hds =>
    have hno : bracedDigits? ('\\' :: 'u' :: ds) = none :=
      bracedDigits?_eq_none fun _ => isHexDigit_ne hds.isHexDigit rfl
    have hnumber := hds.numberEscape 0 .fourDigits
    have hrest : unescapeFrom 1 5 (117 :: Utf8.encode ds) = .ok [] :=
      unescapeFrom_skip (by simp [length_encode_of_isHexDigit hds.isHexDigit, hlen])
    rw [hlen] at hnumber
    rw [decodeEscape_eq_unescape hno (Or.inl rfl)]
    show unescape (92 :: 117 :: Utf8.encode ds) = _
    rw [unescape, unescapeFrom]
    simp [hnumber, hrest]
  | @two ds _ hlen hds =>
    have hno : bracedDigits? ('\\' :: 'x' :: ds) = none := bracedDigits?_eq_none (by simp)
    have hnumber := hds.numberEscape 0 .twoDigits
    have hrest : unescapeFrom 1 3 (120 :: Utf8.encode ds) = .ok [] :=
      unescapeFrom_skip (by simp [length_encode_of_isHexDigit hds.isHexDigit, hlen])
    rw [hlen] at hnumber
    rw [decodeEscape_eq_unescape hno (Or.inl rfl)]
    show unescape (92 :: 120 :: Utf8.encode ds) = _
    rw [unescape, unescapeFrom]
    simp [hnumber, hrest]

theorem decodeEscape_mark {c d : Char} (h : (c, d) ∈ marks) :
    decodeEscape ['\\', c] = .ok [.scalar d] := by
  simp only [marks, List.mem_cons, Prod.mk.injEq, List.not_mem_nil, or_false] at h
  rcases h with ⟨rfl, rfl⟩ | ⟨rfl, rfl⟩ | ⟨rfl, rfl⟩ | ⟨rfl, rfl⟩ | ⟨rfl, rfl⟩ | ⟨rfl, rfl⟩ |
    ⟨rfl, rfl⟩ | ⟨rfl, rfl⟩ | ⟨rfl, rfl⟩ <;> rfl

/-- A character without a meaning of its own stands for itself. -/
theorem decodeEscape_self {c : Char} (hline : c ≠ '\n' ∧ c ≠ '\r')
    (hletter : isEscapeLetter c = false) (hdigit : Text.isDigit c = false) :
    decodeEscape ['\\', c] = .ok [.scalar c] := by
  have hu : c ≠ 'u' := by
    rintro rfl
    cases hletter
  have hno : bracedDigits? ['\\', c] = none := bracedDigits?_eq_none fun h => absurd h hu
  simp [decodeEscape, hno, hline.1, hline.2, hletter, hdigit]

theorem isEscapeLetter_iff {c : Char} :
    isEscapeLetter c = true ↔ c ∈ marks.map Prod.fst ∨ c = 'x' ∨ c = 'u' := by
  simp only [isEscapeLetter, marks, List.contains_iff_mem, String.reduceToList, List.mem_cons,
    List.map_cons, List.map_nil, List.not_mem_nil, or_false]
  tauto

/-- A digit beyond ASCII is taken byte by byte, with the backslash before it. -/
theorem decodeEscape_digit {c : Char} (hc : 0x80 ≤ c.toNat) (hd : Text.isDigit c = true) :
    decodeEscape ['\\', c] = .ok (.scalar '\\' :: latin (Utf8.encodeChar c)) := by
  have hu : c ≠ 'u' := by
    rintro rfl
    exact absurd hc (by decide)
  rw [decodeEscape_eq_unescape (bracedDigits?_eq_none fun h => absurd h hu) (Or.inr hd)]
  rcases encodeChar_ascii c with ⟨b, he, hb⟩ | ⟨-, b, bs, he, hge⟩
  · have := b.toNat_lt
    rcases Utf8.encodeChar_cases c with ⟨x, hx, hxc, hlt⟩ | ⟨x, y, hx, -⟩ | ⟨x, y, z, hx, -⟩ |
      ⟨x, y, z, w, hx, -⟩
    · omega
    all_goals simp [he] at hx
  · rw [he]
    simpa [Utf8.encode] using unescape_latin hge

theorem Misread.decodeEscape {e : List Char} {w : Text} (h : Misread e w) :
    Contract.decodeEscape e = .ok w := by
  cases h with
  | separator hc => rcases hc with rfl | rfl <;> rfl
  | digit hc hd => exact decodeEscape_digit hc hd

theorem Numeral.lt {ds : List Char} {n : Nat} (h : Numeral ds n) : n < 16 ^ ds.length := by
  induction h with
  | nil => simp
  | snoc _ hd ih =>
    have hv := hd.1
    rw [List.length_append, List.length_singleton, pow_succ]
    omega

theorem Spells.le {e : List Char} {n : Nat} (h : Spells e n) : n ≤ 0x10FFFF := by
  cases h with
  | braced _ _ hle => exact hle
  | four hlen hds =>
    have := hds.lt
    rw [hlen] at this
    omega
  | two hlen hds =>
    have := hds.lt
    rw [hlen] at this
    omega

theorem Spells.length_le {e : List Char} {n : Nat} (h : Spells e n) : 3 ≤ e.length := by
  cases h with
  | braced hne => simp
  | four hlen => simp [hlen]
  | two hlen => simp [hlen]

theorem EscapeValue.length_le {e : List Char} {v : Text} (h : EscapeValue e v) : v.length ≤ 1 := by
  cases h <;> simp

/-- The separators of lines and paragraphs end a line, so they have no value but the empty one. -/
theorem EscapeValue.of_separator {c : Char} {v : Text} (h : EscapeValue ['\\', c] v)
    (hc : c = lineSeparator ∨ c = paragraphSeparator) : v = [] := by
  have hends : [c] ∈ lineEnds := by rcases hc with rfl | rfl <;> decide
  cases h with
  | number hp => exact absurd hp.length_le (by simp)
  | zero => exact absurd hends (by decide)
  | mark hm =>
    have hnone : ∀ p ∈ marks, [p.1] ∉ lineEnds := by decide
    exact absurd hends (hnone _ hm)
  | lineEnd => rfl
  | self _ _ _ _ hline => exact absurd hends hline

/-- What an escape is misread for is never its value. -/
theorem Misread.ne {e : List Char} {v w : Text} (h : Misread e w) (hv : EscapeValue e v) :
    w ≠ v := by
  rintro rfl
  cases h with
  | separator hc => exact absurd (hv.of_separator hc) (by simp)
  | @digit c hc hd =>
    obtain ⟨b, bs, he, -⟩ := Utf8.step_encodeChar c []
    have hlen := hv.length_le
    simp [he, latin] at hlen

theorem toNat_ge_of_isDigit {c : Char} (hd : Text.isDigit c = true)
    (hascii : Text.isAsciiDigit c = false) : 0x80 ≤ c.toNat := by
  have hall : ∀ n < 0x80, Text.digits.contains n = true → 48 ≤ n ∧ n ≤ 57 := by decide +kernel
  by_contra hlt
  have hc := hall c.toNat (by omega) hd
  rw [Bool.eq_false_iff, Ne, Text.isAsciiDigit, Bool.and_eq_true, decide_eq_true_eq,
    decide_eq_true_eq, Char.le_def, Char.le_def, UInt32.le_iff_toNat_le,
    UInt32.le_iff_toNat_le] at hascii
  exact hascii hc

/-- An escape that is not misread has its value. -/
theorem EscapeValue.decodeEscape {e : List Char} {v : Text} (h : EscapeValue e v)
    (hread : ∀ w, ¬ Misread e w) : Contract.decodeEscape e = .ok v := by
  cases h with
  | number hp => exact hp.decodeEscape
  | zero => rfl
  | mark hc => exact decodeEscape_mark hc
  | lineEnd hcs =>
    simp only [lineEnds, List.mem_cons, List.not_mem_nil, or_false] at hcs
    rcases hcs with rfl | rfl | rfl | rfl | rfl
    · rfl
    · rfl
    · rfl
    · exact absurd (.separator (Or.inl rfl)) (hread _)
    · exact absurd (.separator (Or.inr rfl)) (hread _)
  | @self c hdigit hx hu hmark hline =>
    simp only [lineEnds, List.mem_cons, List.cons.injEq, and_true, not_or] at hline
    refine decodeEscape_self ⟨hline.1, hline.2.1⟩ ?_ ?_
    · rw [Bool.eq_false_iff, Ne, isEscapeLetter_iff]
      tauto
    · rw [Bool.eq_false_iff]
      intro hd
      exact hread _ (.digit (toNat_ge_of_isDigit hd hdigit) hd)

/-- **Escapes have the value that the language gives them**, except for those that are misread. The
    value of an escape by number depends on the number only. -/
theorem decodeEscape_value {e : List Char} {v : Text} (hv : EscapeValue e v) :
    (decodeEscape e = .ok v ↔ ∀ w, ¬ Misread e w) ∧
    (∀ w, Misread e w → decodeEscape e = .ok w ∧ w ≠ v) ∧
    ∀ e' n, Spells e n → Spells e' n →
      ∃ p : CodePoint, p.toNat = n ∧ decodeEscape e = .ok [p] ∧ decodeEscape e' = .ok [p] := by
  refine ⟨⟨fun h w hw => ?_, hv.decodeEscape⟩, fun w hw => ?_, fun e' n he he' => ?_⟩
  · rw [hw.decodeEscape] at h
    exact hw.ne hv (Except.ok.inj h)
  · exact ⟨hw.decodeEscape, hw.ne hv⟩
  · obtain ⟨p, hp⟩ := CodePoint.exists_ofNat? he.le
    obtain rfl := CodePoint.toNat_of_ofNat? hp
    exact ⟨p, rfl, he.decodeEscape, he'.decodeEscape⟩

/-- A smiling face in braces with a leading zero, half of it in four digits of either case, and an
    escape of each kind that is misread. -/
theorem decodeEscape_value_face :
    Spells "\\u\x7b01f600\x7d".toList 0x1F600 ∧
    decodeEscape "\\u\x7b01f600\x7d".toList = .ok [.scalar (Char.ofNat 0x1F600)] ∧
    Spells "\\uD83d".toList 0xD83D ∧
    decodeEscape "\\uD83d".toList = .ok [.surrogate 0x3D] ∧
    EscapeValue ['\\', lineSeparator] [] ∧
    decodeEscape ['\\', lineSeparator] = .ok [.scalar lineSeparator] ∧
    EscapeValue ['\\', '²'] [.scalar '²'] ∧
    decodeEscape ['\\', '²'] = .ok (Text.ofString "\\Â²") := by
  have digit {v : Nat} (hv : v < 16) : IsDigitOf (Text.hexDigit v) v := ⟨hv, Or.inl rfl⟩
  have hface : Spells "\\u\x7b01f600\x7d".toList 0x1F600 := by
    refine @Spells.braced "01f600".toList _ (by simp) ?_ (by decide)
    exact ((((((Numeral.nil.snoc (digit (v := 0) (by decide))).snoc
      (digit (v := 1) (by decide))).snoc (digit (v := 15) (by decide))).snoc
      (digit (v := 6) (by decide))).snoc (digit (v := 0) (by decide))).snoc
      (digit (v := 0) (by decide)) :)
  have hhalf : Spells "\\uD83d".toList 0xD83D := by
    refine @Spells.four "D83d".toList _ rfl ?_
    exact ((((Numeral.nil.snoc (⟨by decide, Or.inr rfl⟩ : IsDigitOf 'D' 13)).snoc
      (digit (v := 8) (by decide))).snoc (digit (v := 3) (by decide))).snoc
      (digit (v := 13) (by decide)) :)
  have hline : EscapeValue ['\\', lineSeparator] [] := .lineEnd (by decide)
  have htwo : EscapeValue ['\\', '²'] [.scalar '²'] :=
    .self (by decide) (by decide) (by decide) (by decide) (by decide)
  have hone {e : List Char} (p : CodePoint) (h : Spells e p.toNat) : decodeEscape e = .ok [p] := by
    obtain ⟨q, hq, he, -⟩ := (decodeEscape_value (.number h)).2.2 _ _ h h
    rwa [CodePoint.toNat_injective hq] at he
  refine ⟨hface, hone _ hface, hhalf, hone _ hhalf, hline, ?_, htwo, ?_⟩
  · exact ((decodeEscape_value hline).2.1 _ (.separator (Or.inl rfl))).1
  · exact ((decodeEscape_value htwo).2.1 _ (.digit (by decide) (by decide +kernel))).1

end Contract

end Scaffold
