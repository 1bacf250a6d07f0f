/-
  Lexemes in any surroundings.

  `Trivia` is what may stand between two lexemes, and a `Solid` text starts with a lexeme. Trivia in
  front of a solid text is skipped to its end (`skipsTo_append`). A name is read to its end wherever
  no further character of a name follows (`scanName_append`), and no word is read in its place but
  the name itself (`scanWord_of_name`).
-/
import Mathlib
import Scaffold.Proofs.Category
import Scaffold.Proofs.Escape

namespace Scaffold

namespace Text

theorem ofString_injective : Function.Injective ofString := fun _ _ => ofString_inj.1

theorem ofString_append (a b : String) : ofString (a ++ b) = ofString a ++ ofString b := by
  simp [ofString]

theorem after?_append {cs : List Char} {t rest : Text} (h : after? cs t = some rest) (z : Text) :
    after? cs (t ++ z) = some (rest ++ z) := by
  induction cs generalizing t with
  | nil => rw [after?] at h ⊢; rw [← Option.some.inj h]
  | cons c cs ih =>
    cases t with
    | nil => cases h
    | cons p t =>
      rw [List.cons_append, after?]
      rw [after?] at h
      split at h
      · next hp => rw [if_pos hp, ih h]
      · cases h

/-- Characters are found where they stand. -/
@[simp] theorem after?_map (cs : List Char) (z : Text) :
    after? cs (cs.map .scalar ++ z) = some z := by
  induction cs with
  | nil => rfl
  | cons c cs ih => simp [after?, CodePoint.is, ih]

theorem countWhile_append {test : Char → Bool} {t : Text} (h : countWhile test t < t.length)
    (z : Text) : countWhile test (t ++ z) = countWhile test t := by
  induction t with
  | nil => cases h
  | cons p t ih =>
    cases p with
    | surrogate n => rfl
    | scalar c =>
      rw [List.cons_append, countWhile, countWhile]
      split
      · next hc =>
        rw [countWhile, if_pos hc] at h
        rw [ih (Nat.lt_of_succ_lt_succ h)]
      · rfl

end Text

namespace Source

/-! ## Between lexemes -/

/-- A text that starts with a lexeme. -/
def Solid (s : Text) : Prop := ∃ c t, s = .scalar c :: t ∧ isGap c = false ∧ c ≠ '/'

/-- Blanks and comments. A comment to the end of the line has its line end behind it. -/
inductive Trivia : Text → Prop
  | nil : Trivia []
  | gap {c : Char} {t : Text} : isGap c = true → Trivia t → Trivia (.scalar c :: t)
  | line {body t : Text} {e : Char} : (∀ p ∈ body, p.satisfies isCommentEnd false = false) →
      isCommentEnd e = true → Trivia t → Trivia (Text.ofString "//" ++ body ++ .scalar e :: t)
  | block {body t : Text} : blockEnd (body ++ Text.ofString "*/") = some (body.length + 2) →
      Trivia t → Trivia (Text.ofString "/*" ++ body ++ Text.ofString "*/" ++ t)

theorem isGap_of_isCommentEnd {c : Char} (h : isCommentEnd c = true) : isGap c = true := by
  simp only [isCommentEnd, Bool.or_eq_true, beq_iff_eq] at h
  rcases h with ((rfl | rfl) | h) | h
  · decide
  · decide
  · simp [isGap, h]
  · simp [isGap, h]

theorem countUntil_append {stop : Char → Bool} {body : Text} {e : Char}
    (hbody : ∀ p ∈ body, p.satisfies stop false = false) (he : stop e = true) (z : Text) :
    countUntil stop (body ++ .scalar e :: z) = body.length := by
  induction body with
  | nil => simp [countUntil, CodePoint.satisfies, he]
  | cons p body ih =>
    obtain ⟨hp, hbody⟩ := List.forall_mem_cons.1 hbody
    simp [countUntil, hp, ih hbody]

theorem blockEnd_append {t : Text} {n : Nat} (h : blockEnd t = some n) (z : Text) :
    blockEnd (t ++ z) = some n := by
  induction t generalizing n with
  | nil => cases h
  | cons p t ih =>
    rw [blockEnd] at h
    rw [List.cons_append, blockEnd]
    split at h
    · next hp =>
      obtain ⟨hstar, hslash⟩ := Bool.and_eq_true_iff.1 hp
      obtain ⟨rest, hr⟩ := Option.isSome_iff_exists.1 hslash
      rw [if_pos (by rw [hstar, Text.startsWith, Text.after?_append hr]; rfl), h]
    · next hp =>
      obtain ⟨k, hk, rfl⟩ := Option.map_eq_some_iff.1 h
      -- a star at the very end closes nothing, so `t` decides whether the comment ends here
      have ht : t ≠ [] := by rintro rfl; cases hk
      have hsame : Text.startsWith ['/'] (t ++ z) = Text.startsWith ['/'] t := by
        cases t with
        | nil => exact absurd rfl ht
        | cons q t => cases hq : q.is '/' <;> simp [Text.startsWith, Text.after?, hq]
      rw [hsame, if_neg hp, ih hk, Option.map_some]

theorem scanComment_line {body : Text} {e : Char}
    (hbody : ∀ p ∈ body, p.satisfies isCommentEnd false = false) (he : isCommentEnd e = true)
    (z : Text) : scanComment (Text.ofString "//" ++ body ++ .scalar e :: z) =
      some (Text.ofString "//" ++ body).length := by
  have hslashes : Text.ofString "//" = [.scalar '/', .scalar '/'] := rfl
  simp [hslashes, scanComment, Text.after?, CodePoint.is, countUntil_append hbody he]

theorem scanComment_block {body : Text}
    (hbody : blockEnd (body ++ Text.ofString "*/") = some (body.length + 2)) (z : Text) :
    scanComment (Text.ofString "/*" ++ body ++ Text.ofString "*/" ++ z) =
      some (Text.ofString "/*" ++ body ++ Text.ofString "*/").length := by
  have hopen : Text.ofString "/*" = [.scalar '/', .scalar '*'] := rfl
  have hclose : Text.ofString "*/" = [.scalar '*', .scalar '/'] := rfl
  have hend := blockEnd_append hbody z
  simp only [hclose, List.append_assoc, List.cons_append, List.nil_append] at hend
  simp [hopen, hclose, scanComment, Text.after?, CodePoint.is, hend]

/-- A tree that is a comment. -/
structure IsRemark (t : SyntaxTree) : Prop where
  kind : t.kind = .comment
  role : t.role = none
  whole : ¬ t.Broken

theorem SyntaxTree.not_broken_leaf {k : Kind} {o : Nat} {x : Text} (he : k ≠ .error)
    (hm : k ≠ .missing) : ¬ (SyntaxTree.leaf k o x).Broken := by
  rw [SyntaxTree.broken_iff]
  simp [SyntaxTree.leaf, SyntaxTree.isError, SyntaxTree.kind, SyntaxTree.children, he, hm]

namespace Cursor

/-- Skipping from one cursor comes to another one and leaves comments behind. -/
def SkipsTo (fuel : Nat) (c stop : Cursor) : Prop :=
  ∃ cs, (∀ t ∈ cs, IsRemark t) ∧ c.skipTrivia fuel = (cs, stop)

/-- A cursor at a lexeme has nothing to skip. -/
theorem skipTrivia_of_solid {s : Text} (hs : Solid s) (fuel o : Nat) :
    skipTrivia fuel ⟨s, o⟩ = ([], ⟨s, o⟩) := by
  obtain ⟨c, t, rfl, hgap, hslash⟩ := hs
  have hskip : (Cursor.mk (.scalar c :: t) o).skipGap = ⟨.scalar c :: t, o⟩ := by
    simp [skipGap, Text.countWhile, hgap, advance]
  have hcomment : scanComment (.scalar c :: t) = none := by
    simp [scanComment, Text.after?, CodePoint.is, hslash.symm]
  cases fuel with
  | zero => rw [skipTrivia, hskip]
  | succ fuel => rw [skipTrivia, hskip]; simp only [hcomment]

theorem SkipsTo.gap {ch : Char} {s : Text} {fuel o : Nat} {stop : Cursor}
    (h : SkipsTo fuel ⟨s, o + 1⟩ stop) (hc : isGap ch = true) :
    SkipsTo fuel ⟨.scalar ch :: s, o⟩ stop := by
  have hskip : (Cursor.mk (.scalar ch :: s) o).skipGap = (Cursor.mk s (o + 1)).skipGap := by
    rw [skipGap, skipGap, Text.countWhile, if_pos hc, advance, advance, List.drop_succ_cons,
      Nat.add_right_comm, Nat.add_assoc]
  have heq : skipTrivia fuel ⟨.scalar ch :: s, o⟩ = skipTrivia fuel ⟨s, o + 1⟩ := by
    cases fuel with
    | zero => rw [skipTrivia, skipTrivia, hskip]
    | succ fuel => rw [skipTrivia, skipTrivia, hskip]
  rw [SkipsTo, heq]
  exact h

theorem SkipsTo.comment {m s : Text} {fuel o : Nat} {stop : Cursor}
    (h : SkipsTo fuel ⟨s, o + m.length⟩ stop) (hm : m.head? = some (.scalar '/'))
    (hscan : scanComment (m ++ s) = some m.length) : SkipsTo (fuel + 1) ⟨m ++ s, o⟩ stop := by
  obtain ⟨cs, hcs, hskip⟩ := h
  have hgap : (Cursor.mk (m ++ s) o).skipGap = ⟨m ++ s, o⟩ := by
    cases m with
    | nil => cases hm
    | cons p m =>
      cases hm
      simp [skipGap, Text.countWhile, advance, show isGap '/' = false by decide]
  refine ⟨.leaf .comment o m :: cs, List.forall_mem_cons.2 ⟨⟨rfl, rfl, ?_⟩, hcs⟩, ?_⟩
  · exact SyntaxTree.not_broken_leaf (by simp) (by simp)
  · rw [skipTrivia, hgap]
    simp [hscan, advance, hskip]

/-- **Trivia is skipped to its end.** -/
theorem skipsTo_append {g s : Text} (hg : Trivia g) (hs : Solid s) {fuel : Nat}
    (hfuel : g.length ≤ fuel) (o : Nat) : SkipsTo fuel ⟨g ++ s, o⟩ ⟨s, o + g.length⟩ := by
  induction hg generalizing fuel o with
  | nil => exact ⟨[], by simp, skipTrivia_of_solid hs fuel o⟩
  | @gap c t hc _ ih =>
    have hrest := ih (Nat.le_of_succ_le hfuel) (o + 1)
    rw [Nat.add_assoc, Nat.add_comm 1] at hrest
    exact hrest.gap hc
  | @line body t e hbody he _ ih =>
    simp only [List.length_append, List.length_cons] at hfuel
    obtain ⟨fuel, rfl⟩ : ∃ f, fuel = f + 1 := ⟨fuel - 1, by omega⟩
    have hrest := ih (by omega : t.length ≤ fuel) (o + (Text.ofString "//" ++ body).length + 1)
    rw [List.append_assoc]
    refine SkipsTo.comment ?_ rfl (scanComment_line hbody he _)
    convert hrest.gap (isGap_of_isCommentEnd he) using 2
    · rfl
    · simp only [List.length_append, List.length_cons]
      omega
  | @block body t hbody _ ih =>
    have hopen : (Text.ofString "/*").length = 2 := rfl
    simp only [List.length_append, hopen] at hfuel
    obtain ⟨fuel, rfl⟩ : ∃ f, fuel = f + 1 := ⟨fuel - 1, by omega⟩
    have hrest := ih (by omega : t.length ≤ fuel)
      (o + (Text.ofString "/*" ++ body ++ Text.ofString "*/").length)
    rw [List.append_assoc]
    refine SkipsTo.comment ?_ rfl (scanComment_block hbody _)
    convert hrest using 2
    simp only [List.length_append]
    omega

end Cursor

/-! ## Names -/

/-- A text behind which a name ends: no character of a name and no escape starts it. -/
def Stops (z : Text) : Prop := ∃ c t, z = .scalar c :: t ∧ isNameChar c = false ∧ c ≠ '\\'

/-- A name, read on its own. -/
def IsName (y : Text) : Prop := scanName y = some y.length

theorem isGap_of_isNameChar {c : Char} (h : isNameChar c = true) : isGap c = false := by
  unfold isNameChar at h
  simp only [] at h
  split at h
  · next hn =>
    simp only [Bool.or_eq_true, Naming.isAsciiAlphanumeric_iff, beq_iff_eq] at h
    rcases h with ((h | rfl) | rfl) | h
    · simp only [isGap, Bool.or_eq_false_iff, Bool.and_eq_false_iff, decide_eq_false_iff_not,
        beq_eq_false_iff_ne]
      omega
    · decide
    · decide
    · simp [isGap, h]
  · simpa using h

theorem nameLength_of_stops {z : Text} (h : Stops z) : nameLength 0 z = 0 := by
  obtain ⟨c, t, rfl, hc, hb⟩ := h
  simp [nameLength, CodePoint.satisfies, CodePoint.is, hc, hb.symm]

/-- An escape in a name ends where it ends, whatever follows. -/
theorem scanUnicodeEscape_append {t : Text} {n : Nat} (h : scanUnicodeEscape t = some n)
    (z : Text) : scanUnicodeEscape (t ++ z) = some n ∧ n ≤ t.length := by
  unfold scanUnicodeEscape at h ⊢
  split at h
  · next rest hr =>
    simp only [Text.after?_append hr]
    have hlen := congrArg List.length (Text.after?_eq_some hr)
    simp only [List.length_append, List.length_map, List.length_cons, List.length_nil] at hlen
    simp only [] at h
    split at h
    · next hn =>
      cases h
      obtain ⟨hdigits, hbrace⟩ := Bool.and_eq_true_iff.1 hn
      obtain ⟨after, ha⟩ := Option.isSome_iff_exists.1 hbrace
      have hdrop := congrArg List.length (Text.after?_eq_some ha)
      simp only [List.length_drop, List.length_append, List.length_map, List.length_cons,
        List.length_nil] at hdrop
      have hlt : Text.countWhile Text.isHexDigit rest < rest.length := by omega
      rw [Text.countWhile_append hlt, List.drop_append_of_le_length hlt.le, Text.startsWith,
        Text.after?_append ha, hdigits]
      exact ⟨rfl, by omega⟩
    · cases h
  · next hnone =>
    split at h
    · next rest hr =>
      split at h
      · next hn =>
        cases h
        have hlen : 4 ≤ rest.length :=
          (hn.trans (Text.countWhile_le _ _)).trans (List.length_take_le' _ _)
        obtain rfl := Text.after?_eq_some hr
        -- the brace that would open digits of any number is no digit itself
        have hbrace : Text.after? ['\\', 'u', '\x7b']
            (['\\', 'u'].map .scalar ++ rest ++ z) = none := by
          obtain ⟨ds, hcount, htake, hds⟩ := Text.take_of_le_countWhile hn
          rw [List.take_take, Nat.min_self] at htake
          obtain ⟨d, ds, rfl⟩ := List.exists_cons_of_length_pos (by omega : 0 < ds.length)
          have hd : '\x7b' ≠ d := fun hd => absurd (hds d (by simp)) (by rw [← hd]; decide)
          rw [← List.take_append_drop 4 rest, htake]
          simp [Text.after?, CodePoint.is, hd]
        simp only [hbrace, Text.after?_append hr, List.take_append_of_le_length hlen, if_pos hn]
        exact ⟨trivial, by simp; omega⟩
      · cases h
    · cases h

/-- What follows a name does not change it. -/
theorem nameLength_append {y : Text} {k : Nat} (hk : k ≤ y.length) (h : nameLength k y = y.length)
    {z : Text} (hz : Stops z) : nameLength k (y ++ z) = y.length := by
  induction y generalizing k with
  | nil =>
    obtain rfl := Nat.le_zero.1 hk
    exact nameLength_of_stops hz
  | cons p y ih =>
    cases k with
    | succ k =>
      rw [nameLength, List.length_cons, Nat.add_right_cancel_iff] at h
      rw [List.cons_append, nameLength, ih (Nat.le_of_succ_le_succ hk) h, List.length_cons]
    | zero =>
      rw [nameLength] at h
      rw [List.cons_append, nameLength]
      split at h
      · next hp =>
        rw [if_pos hp, ih (Nat.zero_le _) (Nat.succ.inj h), List.length_cons]
      · next hp =>
        rw [if_neg hp]
        split at h
        · next hb =>
          rw [if_pos hb]
          split at h
          · next n hn =>
            obtain ⟨hscan, hle⟩ := scanUnicodeEscape_append hn z
            rw [List.length_cons] at hle
            simp only [List.cons_append] at hscan
            simp only [hscan]
            rw [ih (by omega) (Nat.succ.inj h), List.length_cons]
          · cases h
        · cases h

theorem nameLength_map {cs : List Char} (h : ∀ c ∈ cs, isNameChar c = true) (t : Text) :
    nameLength 0 (cs.map .scalar ++ t) = cs.length + nameLength 0 t := by
  induction cs with
  | nil => simp
  | cons c cs ih =>
    obtain ⟨hc, hcs⟩ := List.forall_mem_cons.1 h
    simp only [List.map_cons, List.cons_append, nameLength, CodePoint.satisfies, hc, if_true,
      ih hcs, List.length_cons]
    omega

namespace IsName

variable {y : Text}

theorem nameLength_eq (h : IsName y) : nameLength 0 y = y.length := by
  unfold IsName scanName at h
  split at h
  · cases h
  · simp only [] at h
    split at h
    · cases h
    · exact Option.some.inj h

/-- What a name can start with. -/
theorem exists_head (h : IsName y) : ∃ c t, y = .scalar c :: t ∧
    (isNameChar c = true ∨ c = '\\') ∧ Text.isAsciiDigit c = false := by
  have hlen := h.nameLength_eq
  unfold IsName scanName at h
  cases y with
  | nil => cases h
  | cons p t =>
    cases p with
    | surrogate n => simp [nameLength, CodePoint.satisfies, CodePoint.is] at hlen
    | scalar c =>
      refine ⟨c, t, rfl, ?_, ?_⟩
      · by_contra hc
        rw [not_or] at hc
        have hstop : Stops (.scalar c :: t) := ⟨c, t, rfl, Bool.eq_false_iff.2 hc.1, hc.2⟩
        rw [nameLength_of_stops hstop] at hlen
        cases hlen
      · rw [Text.headIs] at h
        by_contra hd
        rw [Bool.not_eq_false] at hd
        rw [if_pos hd] at h
        cases h

theorem ne_nil (h : IsName y) : y ≠ [] := by
  obtain ⟨c, t, rfl, -, -⟩ := h.exists_head
  simp

/-- A name is read to its end. -/
theorem scanName_append (h : IsName y) {z : Text} (hz : Stops z) :
    scanName (y ++ z) = some y.length := by
  have hlen := nameLength_append (Nat.zero_le _) h.nameLength_eq hz
  obtain ⟨c, t, rfl, -, hd⟩ := h.exists_head
  rw [scanName, hlen]
  simp [Text.headIs, hd]

theorem solid (h : IsName y) (z : Text) : Solid (y ++ z) := by
  obtain ⟨c, t, rfl, hc, -⟩ := h.exists_head
  refine ⟨c, t ++ z, rfl, ?_, ?_⟩
  · rcases hc with hc | rfl
    · exact isGap_of_isNameChar hc
    · decide
  · rintro rfl
    revert hc
    decide

end IsName

/-- Only the name itself is read as a word where a name stands. -/
theorem scanWord_of_name {y z : Text} (hy : IsName y) (hz : Stops z) {w : String}
    (hw : ∀ c ∈ w.toList, isNameChar c = true) (hne : Text.ofString w ≠ y) :
    scanWord w (y ++ z) = none := by
  unfold scanWord
  split
  · rfl
  · next rest hr =>
    have heq := Text.after?_eq_some hr
    rw [if_neg]
    intro hzero
    rw [beq_iff_eq] at hzero
    have hlen := nameLength_append (Nat.zero_le _) hy.nameLength_eq hz
    rw [heq, nameLength_map hw, hzero, Nat.add_zero] at hlen
    -- so the word and the name are as long as each other
    apply hne
    have := congrArg (List.take y.length) heq
    rw [List.take_left, ← hlen, ← List.length_map (f := CodePoint.scalar), List.take_left] at this
    exact this.symm

theorem scanWord_append {w : String} {z : Text} (hz : Stops z) :
    scanWord w (Text.ofString w ++ z) = some w.length := by
  rw [scanWord, Text.ofString, Text.after?_map]
  simp [nameLength_of_stops hz]

/-! ## Signs -/

theorem scanSymbol_append (s : String) (z : Text) :
    scanSymbol s (Text.ofString s ++ z) = some s.length := by
  rw [scanSymbol, Text.ofString, Text.after?_map, Option.map_some]

theorem scanSymbol_eq_none {s : String} {c d : Char} {ds : List Char} (hs : s.toList = d :: ds)
    (hne : d ≠ c) (t : Text) : scanSymbol s (.scalar c :: t) = none := by
  simp [scanSymbol, hs, Text.after?, CodePoint.is, hne]

theorem scanNumber_eq_none {c : Char} (hd : Text.isAsciiDigit c = false) (hp : c ≠ '.') (t : Text) :
    scanNumber (.scalar c :: t) = none := by
  have hzero : (CodePoint.scalar c).is '0' = false := by
    rw [CodePoint.is, beq_eq_false_iff_ne]
    rintro rfl
    cases hd
  have hrun : decimalRun (.scalar c :: t) = 0 := by
    simp [decimalRun, digitRun, CodePoint.satisfies, hd]
  have hbased (marks : List Char) (test : Char → Bool) :
      scanBased marks test (.scalar c :: t) = none := by
    cases t with
    | nil => rfl
    | cons q t => simp [scanBased, hzero]
  simp [scanNumber, hbased, scanDecimal, hrun, CodePoint.is, hp.symm]

end Source

end Scaffold
