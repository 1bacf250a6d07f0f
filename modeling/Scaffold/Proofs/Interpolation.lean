/-
  Templates of text and interpolated names: `Pattern.compile_source`.

  * A `Pattern` is text with tags `{{ name }}` in it. Its parts carry what makes them so: no tag
    opens in a `Chunk`, and an `Ident` is a word that stands for a value.
  * `run_slot`: the lexer reads the text before a tag as it stands, then the three tokens of the
    tag, and leaves what follows untouched. `bears_tokens` folds this along the pattern.
  * `readsName_parseTuple`: a name alone in a tag is read as that name. Each level of the expression
    grammar hands it on to the next, because nothing that could continue it follows.
-/
import Mathlib
import Scaffold.Template.Check

namespace Scaffold

/-! ## Characters of names -/

namespace Text

variable {c : Char}

theorem isBlank_of_isNameChar (h : isNameChar c = true) : isBlank c = false := by
  have hapart : ∀ r ∈ alphanumeric ++ marks, ∀ b ∈ blanks, r.2 < b.1 ∨ b.2 < r.1 := by
    decide +kernel
  have hlow : isBlank '_' = false := by decide
  have h : c = '_' ∨ ∃ r ∈ alphanumeric ++ marks, r.1 ≤ c.toNat ∧ c.toNat ≤ r.2 := by
    simpa [isNameChar, isWord, Ranges.contains_iff, or_assoc, or_and_right, exists_or] using h
  rcases h with rfl | ⟨r, hr, hlo, hhi⟩
  · exact hlow
  · rw [Bool.eq_false_iff, isBlank, ne_eq, Ranges.contains_iff]
    rintro ⟨b, hb, hlo', hhi'⟩
    have := hapart r hr b hb
    omega

theorem isBlank_of_isWord (h : isWord c = true) : isBlank c = false :=
  isBlank_of_isNameChar (Bool.or_eq_true_iff.2 (.inl h))

theorem isAsciiDigit_of_startsIdentifier (h : startsIdentifier c = true) :
    isAsciiDigit c = false := by
  rw [Bool.eq_false_iff]
  intro hdigit
  simp only [isAsciiDigit, Bool.and_eq_true, decide_eq_true_eq, Char.le_def,
    UInt32.le_iff_toNat_le] at hdigit
  have hinner : innerOnly.contains c.toNat = true :=
    Ranges.contains_iff.2 ⟨(48, 57), by decide, hdigit⟩
  unfold startsIdentifier at h
  split at h
  · simp [hinner] at h
  · obtain ⟨r, hr, hlo, hhi⟩ := Ranges.contains_iff.1 h
    have hfar : ∀ r ∈ leadingMarks, 57 < r.1 := by decide
    have := hfar r hr
    have : c.toNat ≤ 57 := hdigit.2
    omega

theorem ne_of_isNameChar {d : Char} (h : isNameChar c = true) (hd : isNameChar d = false) :
    c ≠ d := by
  rintro rfl
  rw [h] at hd
  cases hd

end Text

namespace Template

/-! ## The form of a pattern -/

/-- Text in which no tag opens and all line ends are the same. -/
structure Chunk where
  chars : List Char
  noTag : ∀ c ∈ ['\x7b', '%', '#'], ¬ ['\x7b', c] <:+: chars
  noReturn : '\r' ∉ chars

/-- Words that do not stand for a value given from outside: an operator, the literals, the blocks of
    the template, and the functions that every template has. -/
def reserved : List String :=
  ["not", "true", "True", "false", "False", "none", "None", "self"] ++ Value.builtins

/-- A name for a value. -/
structure Ident where
  name : String
  chars : ∀ c ∈ name.toList, Text.isNameChar c = true
  identifier : Text.isIdentifier name.toList = true
  free : name ∉ reserved

theorem Ident.exists_cons (i : Ident) : ∃ c cs, i.name.toList = c :: cs ∧
    Text.isNameChar c = true ∧ Text.startsIdentifier c = true := by
  have hchars := i.chars
  have hident := i.identifier
  cases hname : i.name.toList with
  | nil =>
    rw [hname] at hident
    cases hident
  | cons c cs =>
    rw [hname] at hchars hident
    exact ⟨c, cs, rfl, hchars c (by simp), (Bool.and_eq_true_iff.1 hident).1⟩

/-- Text with a name in a tag behind it. -/
structure Slot where
  before : Chunk
  closed : before.chars.getLast? ≠ some '\x7b'
  ident : Ident

/-- A template of text and interpolated names. -/
structure Pattern where
  slots : List Slot
  last : Chunk

/-- A pattern whose names are told apart as they are written. Names are one if their normal forms
    are, so where there are several of them each has to be its own. -/
structure ClearPattern extends Pattern where
  apart : ∀ s ∈ slots, ∀ s' ∈ slots, s.ident.name = s'.ident.name ∨
    (Text.isSettled s.ident.name.toList = true ∧ Text.isSettled s'.ident.name.toList = true)

/-- What a slot is written as. -/
def Slot.source (s : Slot) : List Char :=
  s.before.chars ++ '\x7b' :: '\x7b' :: ' ' :: (s.ident.name.toList ++ [' ', '\x7d', '\x7d'])

/-- The source of a pattern. -/
def Pattern.source (p : Pattern) : List Char := p.slots.flatMap Slot.source ++ p.last.chars

/-- The token of a text, unless it is empty. -/
def textTokens (cs : List Char) : List Token := if cs.isEmpty then [] else [.text cs]

/-- The tokens of a pattern. -/
def Pattern.tokens (p : Pattern) : List Token :=
  (p.slots.flatMap fun s =>
    textTokens s.before.chars ++ [.openPrint, .name s.ident.name, .closePrint]) ++
    textTokens p.last.chars

/-- The statement of a text, unless it is empty. -/
def textStmts (cs : List Char) : List Stmt := if cs.isEmpty then [] else [.text cs]

/-- The statements of a pattern. -/
def Pattern.body (p : Pattern) : List Stmt :=
  (p.slots.flatMap fun s => textStmts s.before.chars ++ [.print (.name s.ident.name)]) ++
    textStmts p.last.chars

theorem Pattern.tokens_cons (s : Slot) (slots : List Slot) (last : Chunk) :
    tokens ⟨s :: slots, last⟩ = (textTokens s.before.chars ++
      [.openPrint, .name s.ident.name, .closePrint]) ++ tokens ⟨slots, last⟩ := by
  simp [tokens]

theorem Pattern.body_cons (s : Slot) (slots : List Slot) (last : Chunk) :
    body ⟨s :: slots, last⟩ =
      textStmts s.before.chars ++ .print (.name s.ident.name) :: body ⟨slots, last⟩ := by
  simp [body]

/-! ## The tokens -/

/-- Items with these tokens, whatever their lines. -/
def Bears : List Item → List Token → Prop :=
  List.Forall₂ fun i t => ∃ line, i = .token line t

theorem bears_textItem (line : Nat) (cs : List Char) :
    Bears (textItem line cs) (textTokens cs) := by
  unfold textItem textTokens
  split
  · exact .nil
  · exact .cons ⟨line, rfl⟩ .nil

theorem openingAt?_eq_none {c : Char} {cs : List Char}
    (h : ∀ d ∈ ['\x7b', '%', '#'], ¬ ['\x7b', d] <+: c :: cs) : openingAt? (c :: cs) = none := by
  unfold openingAt?
  split
  · next rest he => exact absurd (he ▸ (by simp)) (h '%' (by simp))
  · next rest he => exact absurd (he ▸ (by simp)) (h '\x7b' (by simp))
  · next rest he => exact absurd (he ▸ (by simp)) (h '#' (by simp))
  · rfl

/-- The first tag behind text is the first tag behind its end. -/
theorem firstPlace?_append {cs rest : List Char}
    (h : ∀ c ∈ ['\x7b', '%', '#'], ¬ ['\x7b', c] <:+: cs)
    (hend : rest = [] ∨ cs.getLast? ≠ some '\x7b') :
    firstPlace? openingAt? (cs ++ rest) =
      (firstPlace? openingAt? rest).map fun r => (cs ++ r.1, r.2) := by
  induction cs with
  | nil => simp
  | cons c cs ih =>
    have hnone : openingAt? (c :: (cs ++ rest)) = none := by
      refine openingAt?_eq_none fun d hd => ?_
      rintro ⟨more, hmore⟩
      cases cs with
      | nil =>
        obtain ⟨rfl, hrest⟩ : '\x7b' = c ∧ d :: more = rest := by simpa using hmore
        rcases hend with rfl | hend
        · cases hrest
        · simp at hend
      | cons c' cs =>
        obtain ⟨rfl, rfl, -⟩ : '\x7b' = c ∧ d = c' ∧ _ := by simpa using hmore
        exact h d hd ⟨[], cs, rfl⟩
    have hrest := ih (fun d hd hin => h d hd (hin.trans (List.suffix_cons c cs).isInfix)) <| by
      refine hend.imp id fun hne => ?_
      cases cs with
      | nil => simp
      | cons c' cs => simpa [List.getLast?_cons_cons] using hne
    rw [List.cons_append, firstPlace?, hnone, hrest]
    cases firstPlace? openingAt? rest <;> rfl

theorem afterPrint?_eq_none {c : Char} (hsign : c ≠ '-') (hbrace : c ≠ '\x7d') (cs : List Char) :
    afterPrint? (c :: cs) = none := by
  simp [afterPrint?, after?, hsign.symm, hbrace.symm]

namespace Lexer

variable {fuel line : Nat} {b : Bool}

theorem run_next {l l' : Lexer} {items : List Item} (h : l.step = .next items l') :
    run (fuel + 1) l = items ++ run fuel l' := by
  rw [run, h]

/-- Text up to a printing tag stays as it is. -/
theorem step_open (s : Slot) (rest : List Char) :
    step ⟨.text b, line, s.before.chars ++ '\x7b' :: '\x7b' :: ' ' :: rest⟩ =
      .next (textItem line s.before.chars ++
          [.token (line + lineEnds s.before.chars) .openPrint])
        ⟨.tag true [] false, line + lineEnds s.before.chars, ' ' :: rest⟩ := by
  have hplace : firstPlace? openingAt? ('\x7b' :: '\x7b' :: ' ' :: rest) =
      some ([], .print, .usual, ' ' :: rest) := rfl
  simp only [step, stepText, firstPlace?_append s.before.noTag (Or.inr s.closed), hplace,
    Option.map_some, List.append_nil]
  rfl

theorem step_blank (line : Nat) {c : Char} (hc : Text.isBlank c = false) (cs : List Char) :
    step ⟨.tag true [] b, line, ' ' :: c :: cs⟩ =
      .next [] ⟨.tag true [] false, line, c :: cs⟩ := by
  have hnone := afterPrint?_eq_none (c := ' ') (by decide) (by decide) (c :: cs)
  have hblank : Text.isBlank ' ' = true := by decide
  simp only [step, stepTag, List.isEmpty_nil, if_true, afterTag?, hnone, List.takeWhile_cons,
    hblank, hc]
  rfl

theorem stepNumber_name {c : Char} (hc : Text.startsIdentifier c = true) (cs : List Char) :
    stepNumber true [] false line (c :: cs) = stepName true [] line (c :: cs) := by
  have hdigit := Text.isAsciiDigit_of_startsIdentifier hc
  have hzero : c ≠ '0' := by
    rintro rfl
    exact absurd hdigit (by decide)
  have hrun : digitRun (c :: cs) = [] := by
    unfold digitRun
    split <;> simp_all
  have hwhole : wholeAt? (c :: cs) = none := by
    unfold wholeAt?
    simp_all
  simp [stepNumber, fractionAt?, hrun, hwhole]

theorem step_name (i : Ident) (rest : List Char) :
    step ⟨.tag true [] false, line, i.name.toList ++ ' ' :: rest⟩ =
      .next [.token line (.name i.name)] ⟨.tag true [] false, line, ' ' :: rest⟩ := by
  obtain ⟨c, cs, hname, hc, hstart⟩ := i.exists_cons
  have hword : (i.name.toList ++ ' ' :: rest).takeWhile Text.isNameChar = i.name.toList := by
    rw [List.takeWhile_append_of_pos i.chars]
    have hblank : Text.isNameChar ' ' = false := by decide +kernel
    simp [hblank]
  have hnone := afterPrint?_eq_none (Text.ne_of_isNameChar (d := '-') hc (by decide +kernel))
    (Text.ne_of_isNameChar (d := '\x7d') hc (by decide +kernel)) (cs ++ ' ' :: rest)
  have hstep : stepName true [] line (i.name.toList ++ ' ' :: rest) =
      .next [.token line (.name i.name)] ⟨.tag true [] false, line, ' ' :: rest⟩ := by
    have hfull : i.name.toList.isEmpty = false := by rw [hname]; rfl
    simp only [stepName, hword, hfull, i.identifier, if_true, Bool.false_eq_true, if_false,
      String.ofList_toList, List.drop_left]
  rw [← hstep, hname, List.cons_append, ← stepNumber_name hstart]
  simp [step, stepTag, afterTag?, hnone, Text.isBlank_of_isNameChar hc]

theorem step_close (line : Nat) (rest : List Char) :
    ∃ b' line', step ⟨.tag true [] b, line, '\x7d' :: '\x7d' :: rest⟩ =
      .next [.token line .closePrint] ⟨.text b', line', rest⟩ :=
  ⟨_, _, rfl⟩

/-- A slot is read in five steps, whatever follows it. -/
theorem run_slot (fuel line : Nat) (b : Bool) (s : Slot) (rest : List Char) :
    ∃ items b' line', Bears items (textTokens s.before.chars ++
        [.openPrint, .name s.ident.name, .closePrint]) ∧
      run (fuel + 5) ⟨.text b, line, s.source ++ rest⟩ =
        items ++ run fuel ⟨.text b', line', rest⟩ := by
  obtain ⟨c, cs, hname, hchar, -⟩ := s.ident.exists_cons
  let line₁ := line + lineEnds s.before.chars
  obtain ⟨b', line', hclose⟩ := step_close (b := false) line₁ rest
  have hblank := step_blank (b := false) line₁ (Text.isBlank_of_isNameChar hchar)
    (cs ++ ' ' :: '\x7d' :: '\x7d' :: rest)
  rw [← List.cons_append, ← hname] at hblank
  have hsource : s.source ++ rest = s.before.chars ++ '\x7b' :: '\x7b' :: ' ' ::
      (s.ident.name.toList ++ ' ' :: '\x7d' :: '\x7d' :: rest) := by simp [Slot.source]
  refine ⟨textItem line s.before.chars ++ [.token line₁ .openPrint,
    .token line₁ (.name s.ident.name), .token line₁ .closePrint], b', line', ?_, ?_⟩
  · exact List.rel_append (bears_textItem line _)
      (.cons ⟨_, rfl⟩ (.cons ⟨_, rfl⟩ (.cons ⟨_, rfl⟩ .nil)))
  · rw [hsource, run_next (step_open s _), run_next hblank, run_next (step_name s.ident _),
      run_next (step_blank line₁ (by decide) _), run_next hclose]
    simp [line₁]

/-- Text at the end is read in one step, and its end in another. -/
theorem run_last (fuel line : Nat) (b : Bool) (c : Chunk) :
    run (fuel + 2) ⟨.text b, line, c.chars⟩ = textItem line c.chars := by
  have hplace : firstPlace? openingAt? c.chars = none := by
    have hend : c.chars ++ [] = c.chars := List.append_nil _
    rw [← hend, firstPlace?_append c.noTag (Or.inl rfl)]
    rfl
  cases hc : c.chars with
  | nil => rfl
  | cons d ds =>
    rw [hc] at hplace
    simp only [run, step, stepText, hplace]
    simp [firstPlace?, openingAt?]

/-- The tokens of slots and of the text behind them. -/
theorem run_slots (slots : List Slot) (last : Chunk) (b : Bool) (line fuel : Nat)
    (hfuel : 2 * (slots.flatMap Slot.source ++ last.chars).length + 2 ≤ fuel) :
    Bears (run fuel ⟨.text b, line, slots.flatMap Slot.source ++ last.chars⟩)
      (Pattern.tokens ⟨slots, last⟩) := by
  induction slots generalizing b line fuel with
  | nil =>
    obtain ⟨fuel, rfl⟩ := Nat.exists_eq_add_of_le' (Nat.le_of_add_left_le hfuel)
    rw [List.flatMap_nil, List.nil_append, run_last]
    exact bears_textItem line _
  | cons s slots ih =>
    rw [List.flatMap_cons, List.append_assoc] at hfuel ⊢
    have hlen : 3 ≤ s.source.length := by
      simp only [Slot.source, List.length_append, List.length_cons]
      omega
    rw [List.length_append] at hfuel
    obtain ⟨fuel, rfl⟩ : ∃ k, fuel = k + 5 := ⟨fuel - 5, by omega⟩
    obtain ⟨items, b', line', hitems, hrun⟩ :=
      run_slot fuel line b s (slots.flatMap Slot.source ++ last.chars)
    rw [hrun, Pattern.tokens_cons]
    exact List.rel_append hitems (ih b' line' fuel (by omega))

end Lexer

theorem bears_tokens (p : Pattern) : Bears (tokens p.source) p.tokens :=
  Lexer.run_slots p.slots p.last true 1 _ le_rfl

/-! ## Reading names -/

open Parse

section

variable {α β : Type} {fuel : Nat} {name : String}

theorem bind_ok {x : Parse α} {f : α → Parse β} {s s' : Stream} {a : α} (h : x s = .ok (a, s')) :
    (x >>= f) s = f a s' := by
  simp only [bind, StateT.bind, h, Except.bind]

/-- A name alone in a printing tag is read as that name, up to the end of the tag. -/
def ReadsName (name : String) (x : Parse Expr) : Prop :=
  ∀ template line l l' rest,
    x ⟨template, .token l (.name name) :: .token l' .closePrint :: rest, line⟩ =
      .ok (nameExpr name, ⟨template, .token l' .closePrint :: rest, l⟩)

/-- Nothing is read at the end of a printing tag. -/
def Rests (x : Parse α) (a : α) : Prop :=
  ∀ template line l rest, x ⟨template, .token l .closePrint :: rest, line⟩ =
    .ok (a, ⟨template, .token l .closePrint :: rest, line⟩)

theorem ReadsName.bind {x : Parse Expr} {f : Expr → Parse Expr} (hx : ReadsName name x)
    (hf : Rests (f (nameExpr name)) (nameExpr name)) : ReadsName name (x >>= f) :=
  fun template line l l' rest => (bind_ok (hx template line l l' rest)).trans
    (hf template l l' rest)

theorem Rests.bind {x : Parse α} {f : α → Parse β} {a : α} {b : β} (hx : Rests x a)
    (hf : Rests (f a) b) : Rests (x >>= f) b :=
  fun template line l rest => (bind_ok (hx template line l rest)).trans (hf template line l rest)

theorem readsName_parsePrimary : ReadsName name (parsePrimary (fuel + 1)) := by
  intro template line l l' rest
  rw [parsePrimary]
  rfl

theorem rests_parseTrailers (e : Expr) : Rests (parseTrailers (fuel + 1) e) e := by
  intro template line l rest
  rw [parseTrailers]
  rfl

theorem rests_parseFilters (e : Expr) : Rests (parseFilters (fuel + 1) e) e := by
  intro template line l rest
  rw [parseFilters]
  rfl

theorem readsName_parseUnary : ReadsName name (parseUnary (fuel + 2) true) := by
  intro template line l l' rest
  have hsign (m : Mark) : skipIf (isMark m)
      ⟨template, .token l (.name name) :: .token l' .closePrint :: rest, line⟩ =
        .ok (false, ⟨template, .token l (.name name) :: .token l' .closePrint :: rest, line⟩) := rfl
  rw [parseUnary, bind_ok (hsign .sub), bind_ok (hsign .add), if_neg Bool.false_ne_true,
    if_neg Bool.false_ne_true]
  refine readsName_parsePrimary.bind ?_ template line l l' rest
  exact (rests_parseTrailers (nameExpr name)).bind (rests_parseFilters (nameExpr name))

theorem readsName_parsePower : ReadsName name (parsePower (fuel + 3)) := by
  rw [parsePower]
  refine readsName_parseUnary.bind fun template line l rest => ?_
  rw [parsePowers]
  rfl

theorem readsName_parseProduct : ReadsName name (parseProduct (fuel + 4)) := by
  rw [parseProduct]
  refine readsName_parsePower.bind fun template line l rest => ?_
  rw [parseProducts]
  rfl

theorem readsName_parseJoin : ReadsName name (parseJoin (fuel + 5)) := by
  rw [parseJoin]
  refine readsName_parseProduct.bind fun template line l rest => ?_
  rw [parseJoins]
  rfl

theorem readsName_parseSum : ReadsName name (parseSum (fuel + 6)) := by
  rw [parseSum]
  refine readsName_parseJoin.bind fun template line l rest => ?_
  rw [parseSums]
  rfl

theorem readsName_parseNot (hname : name ≠ "not") : ReadsName name (parseNot (fuel + 7)) := by
  intro template line l l' rest
  have hskip : skipIf (isName "not")
      ⟨template, .token l (.name name) :: .token l' .closePrint :: rest, line⟩ =
        .ok (false, ⟨template, .token l (.name name) :: .token l' .closePrint :: rest, line⟩) := by
    have hne : ("not" == name) = false := by simpa using hname.symm
    simp only [skipIf, sees, bind, StateT.bind, Except.bind, Stream.head?, Option.any, isName, hne]
    rfl
  rw [parseNot, bind_ok hskip]
  refine readsName_parseSum.bind (fun template line l rest => ?_) template line l l' rest
  rw [parseCompared]
  rfl

theorem readsName_parseAnd (hname : name ≠ "not") : ReadsName name (parseAnd (fuel + 8)) := by
  rw [parseAnd]
  refine (readsName_parseNot hname).bind fun template line l rest => ?_
  rw [parseAnds]
  rfl

theorem readsName_parseOr (hname : name ≠ "not") : ReadsName name (parseOr (fuel + 9)) := by
  rw [parseOr]
  refine (readsName_parseAnd hname).bind fun template line l rest => ?_
  rw [parseOrs]
  rfl

theorem readsName_parseExpr (hname : name ≠ "not") :
    ReadsName name (parseExpr (fuel + 10) true) := by
  intro template line l l' rest
  rw [parseExpr, bind_ok rfl]
  refine (readsName_parseOr hname).bind (fun template line l rest => ?_) template line l l' rest
  rw [parseChoices]
  rfl

theorem readsName_parseTuple (fuel : Nat) (hname : name ≠ "not") :
    ReadsName name (parseTuple (fuel + 11) true [] false) := by
  intro template line l l' rest
  rw [parseTuple, bind_ok rfl]
  exact (readsName_parseExpr hname).bind (fun _ _ _ _ => rfl) template line l l' rest

end

/-! ## Reading patterns -/

section

variable {items : List Item} {t : Token} {ts : List Token} {body : List Stmt}

theorem advance_ok (h : Bears items ts) (template : String) (line l : Nat) :
    advance ⟨template, .token l t :: items, line⟩ = .ok ((), ⟨template, items, l⟩) := by
  cases h with
  | nil => rfl
  | cons hi _ =>
    obtain ⟨line', rfl⟩ := hi
    rfl

/-- Tokens are read as these statements. Twelve calls a token are enough. -/
def Reads (ts : List Token) (body : List Stmt) : Prop :=
  ∀ template items line fuel, Bears items ts → 12 * ts.length + 1 ≤ fuel →
    ∃ s, parseBody fuel [] ⟨template, items, line⟩ = .ok (body, s)

theorem reads_nil : Reads [] [] := by
  intro template items line fuel hitems hfuel
  obtain ⟨fuel, rfl⟩ : ∃ k, fuel = k + 1 := ⟨fuel - 1, by omega⟩
  cases hitems
  rw [parseBody]
  exact ⟨_, rfl⟩

theorem Reads.text (h : Reads ts body) (cs : List Char) :
    Reads (textTokens cs ++ ts) (textStmts cs ++ body) := by
  unfold textTokens textStmts
  split
  · exact h
  · intro template items line fuel hitems hfuel
    rw [List.singleton_append, List.length_cons] at hfuel
    obtain ⟨fuel, rfl⟩ : ∃ k, fuel = k + 1 := ⟨fuel - 1, by omega⟩
    obtain ⟨_, items, ⟨l, rfl⟩, hrest, rfl⟩ := List.forall₂_cons_right_iff.1 hitems
    obtain ⟨s, hs⟩ := h template items l fuel hrest (by omega)
    rw [parseBody, bind_ok rfl]
    exact ⟨s, (bind_ok (advance_ok hrest template line l)).trans ((bind_ok hs).trans rfl)⟩

theorem Reads.slot (h : Reads ts body) (i : Ident) :
    Reads (.openPrint :: .name i.name :: .closePrint :: ts) (.print (.name i.name) :: body) := by
  intro template items line fuel hitems hfuel
  simp only [List.length_cons] at hfuel
  obtain ⟨fuel, rfl⟩ : ∃ k, fuel = k + 12 := ⟨fuel - 12, by omega⟩
  obtain ⟨_, _, ⟨l₁, rfl⟩, hname, rfl⟩ := List.forall₂_cons_right_iff.1 hitems
  obtain ⟨_, _, ⟨l₂, rfl⟩, htag, rfl⟩ := List.forall₂_cons_right_iff.1 hname
  obtain ⟨_, rest, ⟨l₃, rfl⟩, hrest, rfl⟩ := List.forall₂_cons_right_iff.1 htag
  obtain ⟨s, hs⟩ := h template rest l₃ (fuel + 11) hrest (by omega)
  have hfree := i.free
  simp only [reserved, List.mem_append, List.mem_cons, List.not_mem_nil, or_false, not_or] at hfree
  have hexpr : nameExpr i.name = .name i.name := by simp [nameExpr, hfree]
  have htuple := readsName_parseTuple fuel hfree.1.1 template l₁ l₂ l₃ rest
  rw [hexpr] at htuple
  have hclose : expect isClosePrint ⟨template, .token l₃ .closePrint :: rest, l₂⟩ =
      .ok ((), ⟨template, rest, l₃⟩) := by
    rw [expect, bind_ok rfl]
    exact advance_ok hrest template l₂ l₃
  rw [parseBody, bind_ok rfl]
  exact ⟨s, (bind_ok (advance_ok hname template line l₁)).trans ((bind_ok htuple).trans
    ((bind_ok hclose).trans ((bind_ok hs).trans rfl)))⟩

theorem reads_slots (slots : List Slot) (last : Chunk) :
    Reads (Pattern.tokens ⟨slots, last⟩) (Pattern.body ⟨slots, last⟩) := by
  induction slots with
  | nil => simpa [Pattern.tokens, Pattern.body] using reads_nil.text last.chars
  | cons s slots ih =>
    rw [Pattern.tokens_cons, Pattern.body_cons, List.append_assoc]
    exact (ih.slot s.ident).text s.before.chars

theorem read_source (name : String) (p : Pattern) : Template.read name p.source = .ok ⟨p.body⟩ := by
  have hitems := bears_tokens p
  have hmalformed (line : Nat) : (Stream.mk name (tokens p.source) line).malformed? = none := by
    generalize tokens p.source = items, p.tokens = ts at hitems
    cases hitems with
    | nil => rfl
    | cons hi _ =>
      obtain ⟨line', rfl⟩ := hi
      rfl
  have hreads : Reads p.tokens p.body := reads_slots p.slots p.last
  have hlength := hitems.length_eq
  obtain ⟨s, hs⟩ := hreads name (tokens p.source) 1 (24 * ((tokens p.source).length + 2)) hitems
    (by omega)
  simp only [Template.read, hmalformed, hs]

/-- Text and interpolated names make no mistake: there are no blocks, and no filters or tests. -/
theorem mistake?_body (p : Pattern) : (⟨p.body⟩ : Template).mistake? = none := by
  have hblocks (cs : List Char) (body : List Stmt) :
      blocksIn (textStmts cs ++ body) = blocksIn body := by
    unfold textStmts
    split <;> rfl
  have huses (cs : List Char) (body : List Stmt) :
      usesBody false true (textStmts cs ++ body) = usesBody false true body := by
    unfold textStmts
    split <;> rfl
  have hno : blocksIn p.body = [] ∧ ∀ u ∈ usesBody false true p.body, u.isMistake = false := by
    obtain ⟨slots, last⟩ := p
    induction slots with
    | nil =>
      have := hblocks last.chars []
      have := huses last.chars []
      simp_all [Pattern.body, blocksIn, usesBody]
    | cons s slots ih =>
      rw [Pattern.body_cons, hblocks, huses]
      refine ⟨ih.1, fun u hu => ?_⟩
      rcases List.mem_cons.1 hu with rfl | hu
      · rfl
      · exact ih.2 u hu
  simp only [mistake?, uses, blocks, hno.1, repeatedBlock?, List.flatMap_nil, List.append_nil]
  rw [List.find?_eq_none.2 fun u hu => by simp [hno.2 u hu]]
  rfl

/-- **Patterns may be rendered**, as the text and names they are made of. -/
theorem Pattern.compile_source (name : String) (p : Pattern) :
    Template.compile name p.source = .ok ⟨p.body⟩ := by
  simp only [Template.compile, read_source, mistake?_body]

end

end Template

end Scaffold
