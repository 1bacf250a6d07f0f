/-
  JSON text read back: `readDeep_write`.

  * Strings: `readString_escapeChar` reads one written character, whatever follows, and
    `readString_flatMap` a whole string up to its quote.
  * Values: `Plain depth v` are the values without numbers that nest at most `depth` deep, and
    `Spells depth v cs` says that reading `cs` gives `v`, whatever follows. Every plain value is
    spelled by its written form (`spells_write`).

  Reading counts down `fuel`. A value needs twice as much of it as there are characters left: a
  bracket costs one step for the value and one for the list of its items.
-/
import Scaffold.Json.Reader
import Scaffold.Json.Writer

namespace Scaffold.Json

/-! ## Strings -/

theorem hexValue?_hexDigit (n : Nat) (h : n < 16) : Text.hexValue? (Text.hexDigit n) = some n := by
  have key : ∀ k : Fin 16, Text.hexValue? (Text.hexDigit k) = some k.val := by decide
  exact key ⟨n, h⟩

theorem hex4_hexDigits (n : Nat) (h : n < 0x10000) (rest : List Char) :
    hex4 (Text.hexDigits 4 n ++ rest) = some (n, rest) := by
  have hd (m : Nat) : Text.hexValue? (Text.hexDigit (m % 16)) = some (m % 16) :=
    hexValue?_hexDigit _ (Nat.mod_lt _ (by decide))
  simp only [Text.hexDigits, List.nil_append, List.cons_append, hex4, hd, Option.some.injEq,
    Prod.mk.injEq, and_true]
  omega

theorem readEscape_control (c : Char) (h : c.toNat < 32) (rest : List Char) :
    readEscape ('u' :: (Text.hexDigits 4 c.toNat ++ rest)) = some (c, rest) := by
  have h₁ : ¬ 0xD800 ≤ c.toNat := by omega
  have h₂ : ¬ 0xDC00 ≤ c.toNat := by omega
  simp [readEscape, hex4_hexDigits c.toNat (by omega), h₁, h₂]

theorem eq_ofNat {c : Char} {n : Nat} (h : c.toNat = n) : c = Char.ofNat n := by
  rw [← h, Char.ofNat_toNat]

theorem readString_escape {cs rest : List Char} {c : Char} (h : readEscape cs = some (c, rest))
    (fuel : Nat) :
    readString (fuel + 1) ('\\' :: cs) = (readString fuel rest).map fun r => (c :: r.1, r.2) := by
  simp only [readString, h]
  cases readString fuel rest <;> rfl

theorem readString_plain {c : Char} (hq : c ≠ '"') (hb : c ≠ '\\') (hc : 32 ≤ c.toNat)
    (fuel : Nat) (cs : List Char) :
    readString (fuel + 1) (c :: cs) = (readString fuel cs).map fun r => (c :: r.1, r.2) := by
  have : ¬ c.toNat < 32 := by omega
  simp only [readString, this, if_false]
  cases readString fuel cs <;> rfl

/-- One written character is read back, whatever follows. -/
theorem readString_escapeChar (c : Char) (fuel : Nat) (cs : List Char) :
    readString (fuel + 1) (escapeChar c ++ cs) =
      (readString fuel cs).map fun r => (c :: r.1, r.2) := by
  by_cases h₁ : c = '"'
  · subst h₁; exact readString_escape rfl fuel
  by_cases h₂ : c = '\\'
  · subst h₂; exact readString_escape rfl fuel
  by_cases h₃ : c.toNat < 32
  · by_cases h₄ : c.toNat ∈ [8, 9, 10, 12, 13]
    · simp only [List.mem_cons, List.not_mem_nil, or_false] at h₄
      rcases h₄ with h | h | h | h | h <;> rw [eq_ofNat h] <;> exact readString_escape rfl fuel
    · have he : escapeChar c = ['\\', 'u'] ++ Text.hexDigits 4 c.toNat := by
        simp only [List.mem_cons, List.not_mem_nil, or_false, not_or] at h₄
        simp [escapeChar, h₁, h₂, h₃, h₄]
      rw [he]
      exact readString_escape (readEscape_control c h₃ cs) fuel
  · have he : escapeChar c = [c] := by
      simp [escapeChar, h₁, h₂, h₃, show c.toNat ≠ 8 by omega, show c.toNat ≠ 9 by omega,
        show c.toNat ≠ 10 by omega, show c.toNat ≠ 12 by omega, show c.toNat ≠ 13 by omega]
    rw [he]
    exact readString_plain h₁ h₂ (by omega) fuel cs

/-- A written string is read back up to its quote. -/
theorem readString_flatMap (s : List Char) (fuel : Nat) (h : s.length < fuel) (rest : List Char) :
    readString fuel (s.flatMap escapeChar ++ '"' :: rest) = some (s, rest) := by
  induction s generalizing fuel with
  | nil =>
    obtain ⟨fuel, rfl⟩ : ∃ k, fuel = k + 1 := ⟨fuel - 1, by simp at h; omega⟩
    rfl
  | cons c s ih =>
    obtain ⟨fuel, rfl⟩ : ∃ k, fuel = k + 1 := ⟨fuel - 1, by simp at h; omega⟩
    rw [List.flatMap_cons, List.append_assoc, readString_escapeChar, ih fuel (by simpa using h)]
    rfl

theorem length_le_flatMap_escapeChar (s : List Char) :
    s.length ≤ (s.flatMap escapeChar).length := by
  induction s with
  | nil => simp
  | cons c s ih =>
    have : 1 ≤ (escapeChar c).length := by unfold escapeChar; (repeat' split) <;> simp
    simp only [List.flatMap_cons, List.length_append, List.length_cons]
    omega

/-! ## Blanks -/

theorem skipBlanks_newLine (level : Nat) (cs : List Char) :
    skipBlanks (newLine level ++ cs) = skipBlanks cs := by
  have hr (n : Nat) : skipBlanks (List.replicate n ' ' ++ cs) = skipBlanks cs := by
    induction n with
    | zero => rfl
    | succ n ih => simpa [List.replicate_succ, skipBlanks] using ih
  simpa [newLine, skipBlanks] using hr (2 * level)

/-- A value is read from what stands behind blanks. -/
theorem readValue_congr {cs cs' : List Char} (h : skipBlanks cs = skipBlanks cs')
    (fuel depth : Nat) : readValue fuel depth cs = readValue fuel depth cs' := by
  cases fuel with
  | zero => simp only [readValue]
  | succ fuel => simp only [readValue, h]

theorem readItems_newLine (fuel depth level : Nat) (cs : List Char) :
    readItems fuel depth (newLine level ++ cs) = readItems fuel depth cs := by
  cases fuel with
  | zero => simp only [readItems]
  | succ fuel => simp only [readItems, readValue_congr (skipBlanks_newLine level cs)]

theorem readMembers_newLine (fuel depth level : Nat) (cs : List Char) :
    readMembers fuel depth (newLine level ++ cs) = readMembers fuel depth cs := by
  cases fuel with
  | zero => simp only [readMembers]
  | succ fuel => simp only [readMembers, skipBlanks_newLine]

/-- What the text of a value without numbers starts with. -/
def isOpening (c : Char) : Bool := c ∈ ['n', 't', 'f', '"', '[', '\x7b']

theorem skipBlanks_opening {c : Char} (h : isOpening c = true) (cs : List Char) :
    skipBlanks (c :: cs) = c :: cs := by
  simp only [isOpening, List.mem_cons, List.not_mem_nil, or_false, decide_eq_true_eq] at h
  rcases h with rfl | rfl | rfl | rfl | rfl | rfl <;> rfl

theorem skipBlanks_comma (cs : List Char) : skipBlanks (',' :: cs) = ',' :: cs := rfl

/-! ## Values -/

/-- A value without numbers whose arrays and objects nest at most `depth` deep. -/
inductive Plain : Nat → Json → Prop
  | null {depth} : Plain depth .null
  | bool {depth b} : Plain depth (.bool b)
  | str {depth s} : Plain depth (.str s)
  | arr {depth items} : (∀ v ∈ items, Plain depth v) → Plain (depth + 1) (.arr items)
  | obj {depth members} : (∀ m ∈ members, Plain depth m.2) → Plain (depth + 1) (.obj members)

/-- Reading `cs` gives `v`, whatever follows. -/
def Spells (depth : Nat) (v : Json) (cs : List Char) : Prop :=
  ∀ fuel rest, 2 * (cs ++ rest).length < fuel → readValue fuel depth (cs ++ rest) = some (v, rest)

theorem write_opening {depth : Nat} {v : Json} (h : Plain depth v) (level : Nat) :
    ∃ c cs, write level v = c :: cs ∧ isOpening c = true := by
  cases h with
  | null => exact ⟨_, _, rfl, rfl⟩
  | @bool _ b => cases b <;> exact ⟨_, _, rfl, rfl⟩
  | str => exact ⟨'"', _, rfl, rfl⟩
  | @arr _ items _ => cases items <;> exact ⟨'[', _, rfl, rfl⟩
  | @obj _ members _ => cases members <;> exact ⟨'\x7b', _, rfl, rfl⟩

theorem spells_str (depth : Nat) (s : String) : Spells depth (.str s) (writeString s) := by
  intro fuel rest h
  obtain ⟨fuel, rfl⟩ : ∃ k, fuel = k + 1 := ⟨fuel - 1, by omega⟩
  have hl := length_le_flatMap_escapeChar s.toList
  simp only [writeString, List.cons_append, List.nil_append, List.append_assoc, List.length_cons,
    List.length_append] at h ⊢
  rw [readValue, skipBlanks_opening rfl]
  simp only [readString_flatMap s.toList (fuel + 1) (by omega) rest, Option.map_some,
    String.ofList_toList]

/-! ### Arrays -/

/-- Written items are read back up to the bracket. -/
theorem readItems_write (depth level outer : Nat) (vs : List Json) (v : Json)
    (h : ∀ w ∈ v :: vs, Spells depth w (write level w)) (fuel : Nat) (rest : List Char)
    (hf : 2 * (write level v ++ (writeItems level vs ++ (newLine outer ++ ']' :: rest))).length + 1
      < fuel) :
    readItems fuel depth
        (write level v ++ (writeItems level vs ++ (newLine outer ++ ']' :: rest))) =
      some (v :: vs, rest) := by
  induction vs generalizing v fuel with
  | nil =>
    obtain ⟨fuel, rfl⟩ : ∃ k, fuel = k + 1 := ⟨fuel - 1, by omega⟩
    have hv := h v (by simp) fuel (newLine outer ++ ']' :: rest)
      (by simp [writeItems] at hf ⊢; omega)
    simp only [writeItems, List.nil_append, readItems, hv, skipBlanks_newLine]
    rfl
  | cons w ws ih =>
    obtain ⟨fuel, rfl⟩ : ∃ k, fuel = k + 1 := ⟨fuel - 1, by omega⟩
    have hv := h v (by simp) fuel (writeItems level (w :: ws) ++ (newLine outer ++ ']' :: rest))
      (by omega)
    have hws := ih w (fun u hu => h u (by simp [hu])) fuel (by
      simp only [writeItems, List.length_append, List.length_cons] at hf ⊢
      omega)
    simp only [readItems, hv]
    simp only [writeItems, List.cons_append, List.nil_append, List.append_assoc, skipBlanks_comma,
      readItems_newLine, hws, Option.map_some]

/-- An array with items is read as the list of its items. -/
theorem readValue_bracket (fuel depth : Nat) {cs tail : List Char} {c : Char}
    (hs : skipBlanks cs = c :: tail) (hc : isOpening c = true) :
    readValue (fuel + 1) (depth + 1) ('[' :: cs) =
      (readItems fuel depth (c :: tail)).map fun (items, rest) => (.arr items, rest) := by
  have hne : c ≠ ']' := by rintro rfl; exact absurd hc (by decide)
  simp only [readValue, skipBlanks_opening (c := '[') rfl, hs]
  split
  · simp_all
  · rfl

/-! ### Objects -/

/-- The text of a member. -/
def writeMember (level : Nat) (m : String × Json) : List Char :=
  writeString m.1 ++ (':' :: ' ' :: write level m.2)

theorem writeMembers_cons (level : Nat) (m : String × Json) (ms : List (String × Json)) :
    writeMembers level (m :: ms) =
      ',' :: (newLine level ++ (writeMember level m ++ writeMembers level ms)) := by
  obtain ⟨k, v⟩ := m
  simp [writeMembers, writeMember]

theorem writeMember_quote (level : Nat) (m : String × Json) :
    writeMember level m =
      '"' :: (m.1.toList.flatMap escapeChar ++ '"' :: ':' :: ' ' :: write level m.2) := by
  simp [writeMember, writeString]

/-- A written member is read; what follows decides whether it is the last. -/
theorem readMembers_writeMember {depth level : Nat} {m : String × Json}
    (h : Spells depth m.2 (write level m.2)) (fuel : Nat) (rest : List Char)
    (hf : 2 * (writeMember level m ++ rest).length < fuel) (more : List Char) :
    (skipBlanks rest = '\x7d' :: more →
      readMembers (fuel + 1) depth (writeMember level m ++ rest) = some ([m], more)) ∧
    (skipBlanks rest = ',' :: more →
      readMembers (fuel + 1) depth (writeMember level m ++ rest) =
        (readMembers fuel depth more).map fun r => (m :: r.1, r.2)) := by
  obtain ⟨k, v⟩ := m
  have hl := length_le_flatMap_escapeChar k.toList
  simp only [writeMember_quote, List.cons_append, List.append_assoc, List.length_cons,
    List.length_append] at hf ⊢
  have hc (cs : List Char) : skipBlanks (':' :: cs) = ':' :: cs := rfl
  have hv := h fuel rest (by simp only [List.length_append]; omega)
  have hs : skipBlanks (' ' :: (write level v ++ rest)) = skipBlanks (write level v ++ rest) := rfl
  have hb : readValue fuel depth (' ' :: (write level v ++ rest)) = some (v, rest) :=
    (readValue_congr hs fuel depth).trans hv
  constructor <;> intro hrest <;>
    simp only [readMembers, skipBlanks_opening (c := '"') rfl,
      readString_flatMap k.toList (fuel + 1) (by omega), hc, hb, hrest, String.ofList_toList]

/-- Written members are read back up to the brace. -/
theorem readMembers_write (depth level outer : Nat) (ms : List (String × Json)) (m : String × Json)
    (h : ∀ w ∈ m :: ms, Spells depth w.2 (write level w.2)) (fuel : Nat) (rest : List Char)
    (hf : 2 * (writeMember level m ++ (writeMembers level ms ++
      (newLine outer ++ '\x7d' :: rest))).length + 1 < fuel) :
    readMembers fuel depth
      (writeMember level m ++ (writeMembers level ms ++ (newLine outer ++ '\x7d' :: rest))) =
      some (m :: ms, rest) := by
  induction ms generalizing m fuel with
  | nil =>
    obtain ⟨fuel, rfl⟩ : ∃ k, fuel = k + 1 := ⟨fuel - 1, by omega⟩
    refine (readMembers_writeMember (h m (by simp)) fuel _ (by omega) rest).1 ?_
    rw [writeMembers, List.nil_append, skipBlanks_newLine]
    rfl
  | cons w ws ih =>
    obtain ⟨fuel, rfl⟩ : ∃ k, fuel = k + 1 := ⟨fuel - 1, by omega⟩
    have hws := ih w (fun u hu => h u (by simp [hu])) fuel (by
      simp only [writeMembers_cons, List.length_append, List.length_cons] at hf ⊢
      omega)
    have hmember := readMembers_writeMember (h m (by simp)) fuel
      (writeMembers level (w :: ws) ++ (newLine outer ++ '\x7d' :: rest)) (by omega)
    simp only [writeMembers_cons, List.cons_append, List.append_assoc, skipBlanks_comma]
      at hmember ⊢
    rw [(hmember _).2 rfl, readMembers_newLine, hws, Option.map_some]

/-- An object with members is read as the list of its members. -/
theorem readValue_brace (fuel depth : Nat) {cs tail : List Char} {c : Char}
    (hs : skipBlanks cs = c :: tail) (hc : isOpening c = true) :
    readValue (fuel + 1) (depth + 1) ('\x7b' :: cs) =
      (readMembers fuel depth (c :: tail)).map fun (members, rest) => (.obj members, rest) := by
  have hne : c ≠ '\x7d' := by rintro rfl; exact absurd hc (by decide)
  simp only [readValue, skipBlanks_opening (c := '\x7b') rfl, hs]
  split
  · simp_all
  · rfl

/-! ### The round trip -/

/-- Every plain value is spelled by its written form. -/
theorem spells_write {depth : Nat} {v : Json} (h : Plain depth v) :
    ∀ level, Spells depth v (write level v) := by
  induction h with
  | null =>
    intro level fuel rest hf
    obtain ⟨fuel, rfl⟩ : ∃ k, fuel = k + 1 := ⟨fuel - 1, by omega⟩
    simp [readValue, write, skipBlanks, afterWord]
    rfl
  | @bool depth b =>
    intro level fuel rest hf
    obtain ⟨fuel, rfl⟩ : ∃ k, fuel = k + 1 := ⟨fuel - 1, by omega⟩
    cases b <;> simp [readValue, write, skipBlanks, afterWord] <;> rfl
  | str => exact fun level => spells_str _ _
  | @arr depth items hp ih =>
    intro level fuel rest hf
    obtain ⟨fuel, rfl⟩ : ∃ k, fuel = k + 1 := ⟨fuel - 1, by omega⟩
    cases items with
    | nil => simp [readValue, write, skipBlanks]
    | cons v vs =>
      obtain ⟨c, cs, hc, ho⟩ := write_opening (hp v (by simp)) (level + 1)
      have hr := readItems_write depth (level + 1) level vs v (fun w hw => ih w hw (level + 1))
        fuel rest (by
          simp only [write, newLine, List.length_append, List.length_cons] at hf ⊢
          omega)
      simp only [write, List.cons_append, List.nil_append, List.append_assoc]
      rw [hc, List.cons_append] at hr ⊢
      rw [readValue_bracket fuel depth (by rw [skipBlanks_newLine, skipBlanks_opening ho]) ho, hr]
      rfl
  | @obj depth members hp ih =>
    intro level fuel rest hf
    obtain ⟨fuel, rfl⟩ : ∃ k, fuel = k + 1 := ⟨fuel - 1, by omega⟩
    cases members with
    | nil => simp [readValue, write, skipBlanks]
    | cons m ms =>
      have hm : write level (.obj (m :: ms)) ++ rest = '\x7b' :: (newLine (level + 1) ++
          (writeMember (level + 1) m ++ (writeMembers (level + 1) ms ++
            (newLine level ++ '\x7d' :: rest)))) := by
        obtain ⟨k, v⟩ := m
        simp [write, writeMember]
      rw [hm] at hf ⊢
      have hr := readMembers_write depth (level + 1) level ms m
        (fun w hw => ih w hw (level + 1)) fuel rest (by
          simp only [newLine, List.length_append, List.length_cons] at hf ⊢
          omega)
      rw [writeMember_quote, List.cons_append] at hr ⊢
      rw [readValue_brace fuel depth (by rw [skipBlanks_newLine, skipBlanks_opening rfl]) rfl, hr]
      rfl

/-- **The text of a plain value is read as that value** by readers that allow for its nesting. -/
theorem readDeep_write {depth : Nat} {v : Json} (h : Plain depth v) :
    readDeep depth (write 0 v) = some v := by
  have hs := spells_write h 0 (2 * (write 0 v).length + 2) [] (by simp)
  rw [List.append_nil] at hs
  simp [readDeep, hs, skipBlanks]

end Scaffold.Json
