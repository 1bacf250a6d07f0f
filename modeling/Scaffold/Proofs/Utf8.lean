/-
  UTF-8 read back: `decode_encode`.

  A character takes one to four bytes. `encodeChar_cases` gives the bytes in arithmetic, and
  `step_encodeChar` reads them as one sequence of that length, whatever follows; `decodeFrom` then
  skips the rest of the sequence.
-/
import Scaffold.Text.Utf8

namespace Scaffold.Utf8

theorem char_range (c : Char) :
    c.toNat < 0xD800 ∨ (0xDFFF < c.toNat ∧ c.toNat < 0x110000) := by
  have := c.valid
  simp only [UInt32.isValidChar, Nat.isValidChar] at this
  show c.val.toNat < _ ∨ (_ < c.val.toNat ∧ c.val.toNat < _)
  omega

/-- The bytes of a character, by the length of its sequence. -/
theorem encodeChar_cases (c : Char) :
    (∃ b, encodeChar c = [b] ∧ b.toNat = c.toNat ∧ c.toNat < 0x80) ∨
    (∃ b₀ b₁, encodeChar c = [b₀, b₁] ∧ b₀.toNat = 0xC0 + c.toNat / 64 ∧
      b₁.toNat = 0x80 + c.toNat % 64 ∧ 0x80 ≤ c.toNat ∧ c.toNat < 0x800) ∨
    (∃ b₀ b₁ b₂, encodeChar c = [b₀, b₁, b₂] ∧ b₀.toNat = 0xE0 + c.toNat / 4096 ∧
      b₁.toNat = 0x80 + c.toNat / 64 % 64 ∧ b₂.toNat = 0x80 + c.toNat % 64 ∧
      0x800 ≤ c.toNat ∧ c.toNat < 0x10000) ∨
    (∃ b₀ b₁ b₂ b₃, encodeChar c = [b₀, b₁, b₂, b₃] ∧ b₀.toNat = 0xF0 + c.toNat / 262144 ∧
      b₁.toNat = 0x80 + c.toNat / 4096 % 64 ∧ b₂.toNat = 0x80 + c.toNat / 64 % 64 ∧
      b₃.toNat = 0x80 + c.toNat % 64 ∧ 0x10000 ≤ c.toNat ∧ c.toNat < 0x110000) := by
  have hc := char_range c
  unfold encodeChar
  simp only []
  split
  · exact .inl ⟨_, rfl, by simp; omega, by omega⟩
  split
  · exact .inr (.inl ⟨_, _, rfl, by simp; omega, by simp; omega, by omega, by omega⟩)
  split
  · exact .inr (.inr (.inl ⟨_, _, _, rfl, by simp; omega, by simp; omega, by simp; omega,
      by omega, by omega⟩))
  · exact .inr (.inr (.inr ⟨_, _, _, _, rfl, by simp; omega, by simp; omega, by simp; omega,
      by simp; omega, by omega, by omega⟩))

theorem isContinuation_iff (b : UInt8) :
    isContinuation b = true ↔ 0x80 ≤ b.toNat ∧ b.toNat < 0xC0 := by
  simp [isContinuation, UInt8.le_iff_toNat_le, UInt8.lt_iff_toNat_lt]

theorem secondFits_iff (b₀ b₁ : UInt8) :
    secondFits b₀ b₁ = true ↔ (0x80 ≤ b₁.toNat ∧ b₁.toNat < 0xC0) ∧
      (b₀.toNat = 0xE0 → 0xA0 ≤ b₁.toNat) ∧ (b₀.toNat = 0xED → b₁.toNat < 0xA0) ∧
      (b₀.toNat = 0xF0 → 0x90 ≤ b₁.toNat) ∧ (b₀.toNat = 0xF4 → b₁.toNat < 0x90) := by
  unfold secondFits
  rw [Bool.and_eq_true, isContinuation_iff]
  simp only [beq_iff_eq, ← UInt8.toNat_inj]
  split
  · simp [UInt8.le_iff_toNat_le, *]
  split
  · simp [UInt8.lt_iff_toNat_lt, *]
  split
  · simp [UInt8.le_iff_toNat_le, *]
  split
  · simp [UInt8.lt_iff_toNat_lt, *]
  · simp_all

/-- The first sequence of a written text is its first character. -/
theorem step_encodeChar (c : Char) (rest : List UInt8) :
    ∃ b bs, encodeChar c = b :: bs ∧ step b (bs ++ rest) = .char c (bs.length + 1) := by
  have hs := char_range c
  rcases encodeChar_cases c with ⟨b, h, hb, hc⟩ | ⟨b₀, b₁, h, h₀, h₁, hc, hc'⟩ |
    ⟨b₀, b₁, b₂, h, h₀, h₁, h₂, hc, hc'⟩ | ⟨b₀, b₁, b₂, b₃, h, h₀, h₁, h₂, h₃, hc, hc'⟩
  · refine ⟨b, [], h, ?_⟩
    simp only [step, UInt8.lt_iff_toNat_lt, UInt8.reduceToNat]
    rw [if_pos (by omega), hb, Char.ofNat_toNat]
    rfl
  · refine ⟨b₀, [b₁], h, ?_⟩
    have e : b₀.toNat % 32 * 64 + low b₁ = c.toNat := by simp only [low]; omega
    have k : isContinuation b₁ = true := by rw [isContinuation_iff]; omega
    simp only [step, UInt8.lt_iff_toNat_lt, UInt8.reduceToNat, List.cons_append]
    rw [if_neg (by omega), if_neg (by omega), if_pos (by omega), if_pos k, e, Char.ofNat_toNat]
    rfl
  · refine ⟨b₀, [b₁, b₂], h, ?_⟩
    have e : b₀.toNat % 16 * 4096 + low b₁ * 64 + low b₂ = c.toNat := by simp only [low]; omega
    -- no shorter spelling and no surrogate, so the second byte fits
    have k₁ : secondFits b₀ b₁ = true := by rw [secondFits_iff]; omega
    have k₂ : isContinuation b₂ = true := by rw [isContinuation_iff]; omega
    simp only [step, UInt8.lt_iff_toNat_lt, UInt8.reduceToNat, List.cons_append]
    rw [if_neg (by omega), if_neg (by omega), if_neg (by omega), if_pos (by omega), k₁, k₂, e,
      Char.ofNat_toNat]
    rfl
  · refine ⟨b₀, [b₁, b₂, b₃], h, ?_⟩
    have e : b₀.toNat % 8 * 262144 + low b₁ * 4096 + low b₂ * 64 + low b₃ = c.toNat := by
      simp only [low]; omega
    have k₁ : secondFits b₀ b₁ = true := by rw [secondFits_iff]; omega
    have k₂ : isContinuation b₂ = true := by rw [isContinuation_iff]; omega
    have k₃ : isContinuation b₃ = true := by rw [isContinuation_iff]; omega
    simp only [step, UInt8.lt_iff_toNat_lt, UInt8.reduceToNat, List.cons_append]
    rw [if_neg (by omega), if_neg (by omega), if_neg (by omega), if_neg (by omega),
      if_pos (by omega), k₁, k₂, k₃, e, Char.ofNat_toNat]
    rfl

theorem decodeFrom_skip (bs rest : List UInt8) (start : Nat) :
    decodeFrom start bs.length (bs ++ rest) = decodeFrom (start + bs.length) 0 rest := by
  induction bs generalizing start with
  | nil => rfl
  | cons b bs ih =>
    simp only [List.length_cons, List.cons_append, decodeFrom]
    rw [ih, Nat.add_right_comm, Nat.add_assoc]

theorem decodeFrom_encode (cs : List Char) (start : Nat) :
    decodeFrom start 0 (encode cs) = .ok cs := by
  induction cs generalizing start with
  | nil => rfl
  | cons c cs ih =>
    obtain ⟨b, bs, h, hstep⟩ := step_encodeChar c (encode cs)
    have he : encode (c :: cs) = b :: (bs ++ encode cs) := by
      simp [encode, List.flatMap_cons, h]
    rw [he, decodeFrom]
    simp [hstep, decodeFrom_skip, ih]

/-- **Written characters are read back.** -/
theorem decode_encode (cs : List Char) : decode (encode cs) = .ok cs :=
  decodeFrom_encode cs 0

theorem unitsFrom_of_decodeFrom {bytes : List UInt8} {cs : List Char} {start skip : Nat}
    (h : decodeFrom start skip bytes = .ok cs) : unitsFrom skip bytes = cs.map .scalar := by
  induction bytes generalizing cs start skip with
  | nil =>
    cases h
    rfl
  | cons b rest ih =>
    cases skip with
    | succ k => exact ih h
    | zero =>
      simp only [decodeFrom] at h
      split at h
      · next c length hstep =>
        split at h
        · next cs' hrest =>
          cases h
          simp only [unitsFrom, hstep, ih hrest, List.map_cons]
        · cases h
      · cases h

/-- Bytes that spell characters hold nothing else. -/
theorem units_of_decode {bytes : List UInt8} {cs : List Char} (h : decode bytes = .ok cs) :
    units bytes = cs.map .scalar :=
  unitsFrom_of_decodeFrom h

end Scaffold.Utf8
