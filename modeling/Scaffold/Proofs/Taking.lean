/-
  What the reader takes and what it leaves alone.

  `Takes m p x z Q`: in front of `z` the pattern `p` takes the text `x`, and what it reads has `Q`,
  wherever the text stands and whatever the bounds, as long as they are `Ample`. `Refuses m p z`:
  the pattern takes nothing in front of `z`. Patterns that fail on the next lexeme refuse a text
  (`refuses_of_fails`), and there is one rule for each way to put patterns together.
-/
import Mathlib
import Scaffold.Proofs.Lexemes

namespace Scaffold.Source

open Pattern Grammar

/-- A text, behind blanks and comments. -/
def Next (z r : Text) : Prop := ∃ g, Trivia g ∧ Solid r ∧ z = g ++ r

theorem Next.of_solid {r : Text} (h : Solid r) : Next r r := ⟨[], .nil, h, rfl⟩

/-! ## Patterns that fail on the next lexeme -/

/-- Rules that fail on the sign they start with. -/
def RuleFails (r : Text) : Rule → Prop
  | .typeParameters | .typeArguments => scanSymbol "<" r = none
  | .parameters _ | .arguments => scanSymbol "(" r = none
  | .signature _ => scanSymbol "<" r = none ∧ scanSymbol "(" r = none
  | .binding b => scanSymbol "..." r = none ∧ scanSymbol "\x7b" r = none ∧
      scanSymbol "[" r = none ∧ scanNameExcept (bindingWords b) r = none
  | .objectType => scanSymbol "\x7b|" r = none ∧ scanSymbol "\x7b" r = none
  | .decorator => scanSymbol "@" r = none
  | .exportStatement => scanSymbol "@" r = none ∧ scanWord "export" r = none
  | _ => False

mutual

/-- A pattern that fails on the lexeme at the start of `r`. -/
@[simp] def Fails (r : Text) : P → Prop
  | .lexeme _ scan => scan r = none
  | .seq p q => Fails r p ∨ Idle r p ∧ Fails r q
  | .alt p q => Fails r p ∧ Fails r q
  | .node _ p | .labelled _ p | .grow _ _ _ p _ => Fails r p
  | .rule x => RuleFails r x
  | _ => False

/-- A pattern that reads nothing in front of `r`. -/
@[simp] def Idle (r : Text) : P → Prop
  | .nothing => True
  | .seq p q => Idle r p ∧ Idle r q
  | .alt p q => Fails r p ∧ Idle r q
  | .many p | .absent p => Fails r p
  | .labelled _ p => Idle r p
  | _ => False

end

theorem fails_of_ruleFails {r : Text} {x : Rule} (h : RuleFails r x) : Fails r (grammar x) := by
  cases x <;> simp_all [RuleFails, grammar, typeParameters, typeArguments, parameters, arguments,
    signature, binding, objectType, decorator, exportStatement, seqs, alts, sym, word, opt]

section

variable {r : Text} {b : Nat} {call : Rule → Reader}

/-- Patterns that fail on the next lexeme fail, and idle ones read nothing. -/
theorem run_of_fails (hr : Solid r)
    (hcall : ∀ {x : Rule} {g : Text}, RuleFails r x → Trivia g → (g ++ r).length ≤ b →
      ∀ o, call x ⟨g ++ r, o⟩ = none)
    {g : Text} (hg : Trivia g) (hb : (g ++ r).length ≤ b) (o : Nat) (p : P) :
    (Fails r p → run b call p ⟨g ++ r, o⟩ = none) ∧
    (Idle r p → run b call p ⟨g ++ r, o⟩ = some ([], ⟨g ++ r, o⟩)) := by
  have hskips {g : Text} (hg : Trivia g) (hb : (g ++ r).length ≤ b) (o : Nat) :
      Cursor.SkipsTo b ⟨g ++ r, o⟩ ⟨r, o + g.length⟩ :=
    Cursor.skipsTo_append hg hr (by rw [List.length_append] at hb; omega) o
  have hrb {g : Text} (hb : (g ++ r).length ≤ b) : ([] ++ r : Text).length ≤ b := by
    rw [List.length_append] at hb
    rw [List.nil_append]
    omega
  induction p generalizing g o with
  | nothing => simp [run]
  | lexeme k scan =>
    obtain ⟨cs, -, hskip⟩ := hskips hg hb o
    refine ⟨fun h => ?_, by simp⟩
    rw [Fails] at h
    simp only [run, hskip, h]
  | glued => simp
  | rule x => exact ⟨fun h => hcall h hg hb o, by simp⟩
  | seq p q ihp ihq =>
    refine ⟨?_, ?_⟩
    · rintro (hp | ⟨hp, hq⟩)
      · simp only [run, (ihp hg hb o).1 hp]
      · simp only [run, (ihp hg hb o).2 hp, (ihq hg hb o).1 hq]
    · rintro ⟨hp, hq⟩
      simp only [run, (ihp hg hb o).2 hp, (ihq hg hb o).2 hq, List.append_nil]
  | alt p q ihp ihq =>
    refine ⟨?_, ?_⟩
    · rintro ⟨hp, hq⟩
      simp only [run, (ihp hg hb o).1 hp, (ihq hg hb o).1 hq]
    · rintro ⟨hp, hq⟩
      simp only [run, (ihp hg hb o).1 hp, (ihq hg hb o).2 hq]
  | many p ih =>
    refine ⟨by simp, fun hp => ?_⟩
    cases b with
    | zero => simp only [run, repeatRead]
    | succ b => simp only [run, repeatRead, (ih hg hb o).1 hp]
  | ahead => simp
  | absent p ih =>
    refine ⟨by simp, fun hp => ?_⟩
    simp only [run, (ih hg hb o).1 hp]
  | lineEnd => simp
  | node k p ih =>
    obtain ⟨cs, -, hskip⟩ := hskips hg hb o
    refine ⟨fun hp => ?_, by simp⟩
    have hinner := (ih .nil (hrb hb) (o + g.length)).1 hp
    rw [List.nil_append] at hinner
    simp only [run, hskip, hinner]
  | labelled role p ih =>
    refine ⟨fun hp => ?_, fun hp => ?_⟩
    · simp only [run, (ih hg hb o).1 hp, Option.map_none]
    · simp only [run, (ih hg hb o).2 hp, Option.map_some, List.map_nil]
  | grow again allowed role base step ihb _ =>
    obtain ⟨cs, -, hskip⟩ := hskips hg hb o
    refine ⟨fun hp => ?_, by simp⟩
    have hinner := (ihb .nil (hrb hb) (o + g.length)).1 hp
    rw [List.nil_append] at hinner
    simp only [run, hskip, hinner]

end

theorem read_of_ruleFails {r : Text} (hr : Solid r) {b : Nat} (d : Nat) {x : Rule} {g : Text}
    (h : RuleFails r x) (hg : Trivia g) (hb : (g ++ r).length ≤ b) (o : Nat) :
    grammar.read b d x ⟨g ++ r, o⟩ = none := by
  induction d generalizing x g o with
  | zero => rfl
  | succ d ih =>
    exact (run_of_fails hr (fun h hg hb o => ih h hg hb o) hg hb o _).1 (fails_of_ruleFails h)

/-- Bounds that suffice for a text when `m` more rules are entered before its next lexeme. -/
structure Ample (m b d : Nat) (s : Text) : Prop where
  bound : s.length ≤ b
  depth : 20 * s.length + m ≤ d

/-- A pattern that takes nothing in front of a text. -/
def Refuses (m : Nat) (p : P) (z : Text) : Prop :=
  ∀ b d o, Ample m b d z → run b (grammar.read b d) p ⟨z, o⟩ = none

/-- A pattern that reads nothing in front of a text. -/
def Passes (m : Nat) (p : P) (z : Text) : Prop :=
  ∀ b d o, Ample m b d z → run b (grammar.read b d) p ⟨z, o⟩ = some ([], ⟨z, o⟩)

theorem refuses_of_fails {m : Nat} {p : P} {z r : Text} (hz : Next z r) (h : Fails r p) :
    Refuses m p z := by
  obtain ⟨g, hg, hr, rfl⟩ := hz
  intro b d o ha
  exact (run_of_fails hr (read_of_ruleFails hr d) hg ha.bound o p).1 h

theorem passes_of_idle {m : Nat} {p : P} {z r : Text} (hz : Next z r) (h : Idle r p) :
    Passes m p z := by
  obtain ⟨g, hg, hr, rfl⟩ := hz
  intro b d o ha
  exact (run_of_fails hr (read_of_ruleFails hr d) hg ha.bound o p).2 h

/-! ## Taking a text -/

/-- In front of `z` the pattern takes `x`, and what it reads has `Q`. -/
def Takes (m : Nat) (p : P) (x z : Text) (Q : List SyntaxTree → Prop) : Prop :=
  ∀ b d o, Ample m b d (x ++ z) →
    ∃ ts, run b (grammar.read b d) p ⟨x ++ z, o⟩ = some (ts, ⟨z, o + x.length⟩) ∧ Q ts

/-- Trees without broken source in them. -/
def Sane (ts : List SyntaxTree) : Prop := ∀ t ∈ ts, ¬ t.Broken

/-- A node of a kind over a text, without broken source in it. -/
structure IsNode (k : Kind) (x : Text) (w : SyntaxTree) : Prop where
  kind : w.kind = k
  text : w.text = x
  whole : ¬ w.Broken

/-- A node, and perhaps comments before it. -/
def Last (R : SyntaxTree → Prop) (ts : List SyntaxTree) : Prop :=
  ∃ cs w, ts = cs ++ [w] ∧ (∀ t ∈ cs, IsRemark t) ∧ R w

/-- One node. -/
def Single (R : SyntaxTree → Prop) (ts : List SyntaxTree) : Prop := ∃ w, ts = [w] ∧ R w

theorem Ample.tail {m b d : Nat} {x z : Text} (h : Ample m b d (x ++ z)) (hx : x ≠ []) :
    Ample 20 b d z := by
  have hpos := List.length_pos_of_ne_nil hx
  obtain ⟨hb, hd⟩ := h
  rw [List.length_append] at hb hd
  exact ⟨by omega, by omega⟩

theorem Ample.mono {m n b d : Nat} {s : Text} (h : Ample n b d s) (hmn : m ≤ n) : Ample m b d s :=
  ⟨h.bound, by have := h.depth; omega⟩

theorem Ample.drop {m b d : Nat} {x z : Text} (h : Ample m b d (x ++ z)) : Ample m b d z := by
  obtain ⟨hb, hd⟩ := h
  rw [List.length_append] at hb hd
  exact ⟨by omega, by omega⟩

theorem Cursor.textTo_append (x z z' : Text) (o : Nat) :
    textTo ⟨x ++ z, o⟩ ⟨z', o + x.length⟩ = x := by
  simp [textTo]

section

variable {m n : Nat} {p q : P} {x y z g : Text} {k : Kind} {Q R : List SyntaxTree → Prop}

theorem Takes.mono (h : Takes m p x z Q) (hmn : m ≤ n) : Takes n p x z Q :=
  fun b d o ha => h b d o (ha.mono hmn)

theorem Takes.imp (h : Takes m p x z Q) (himp : ∀ ts, Q ts → R ts) : Takes m p x z R := by
  intro b d o ha
  obtain ⟨ts, hts, hq⟩ := h b d o ha
  exact ⟨ts, hts, himp ts hq⟩

theorem Takes.rule {r : Rule} (h : Takes m (grammar r) x z Q) : Takes (m + 1) (.rule r) x z Q := by
  intro b d o ha
  obtain ⟨hb, hd⟩ := ha
  obtain ⟨d, rfl⟩ : ∃ e, d = e + 1 := ⟨d - 1, by omega⟩
  exact h b d o ⟨hb, by omega⟩

theorem Takes.seq (hp : Takes m p x (y ++ z) Q) (hx : x ≠ []) (hq : Takes 20 q y z R) :
    Takes m (.seq p q) (x ++ y) z fun ts => ∃ l r, ts = l ++ r ∧ Q l ∧ R r := by
  intro b d o ha
  rw [List.append_assoc] at ha ⊢
  obtain ⟨l, hl, hql⟩ := hp b d o ha
  obtain ⟨r, hr, hrr⟩ := hq b d (o + x.length) (ha.tail hx)
  refine ⟨l ++ r, ?_, l, r, rfl, hql, hrr⟩
  simp only [run, hl, hr, List.length_append, Nat.add_assoc]

/-- A pattern that reads nothing may stand before. -/
theorem Takes.after (hp : Passes m p (x ++ z)) (hq : Takes m q x z Q) :
    Takes m (.seq p q) x z Q := by
  intro b d o ha
  obtain ⟨ts, hts, hqts⟩ := hq b d o ha
  refine ⟨ts, ?_, hqts⟩
  simp only [run, hp b d o ha, hts, List.nil_append]

/-- A pattern that reads nothing may stand behind. -/
theorem Takes.before (hp : Takes m p x z Q) (hq : Passes m q z) : Takes m (.seq p q) x z Q := by
  intro b d o ha
  obtain ⟨ts, hts, hqts⟩ := hp b d o ha
  refine ⟨ts, ?_, hqts⟩
  simp only [run, hts, hq b d _ ha.drop, List.append_nil]

theorem Takes.left (h : Takes m p x z Q) : Takes m (.alt p q) x z Q := by
  intro b d o ha
  obtain ⟨ts, hts, hq⟩ := h b d o ha
  exact ⟨ts, by simp only [run, hts], hq⟩

theorem Takes.right (hp : Refuses m p (x ++ z)) (hq : Takes m q x z Q) :
    Takes m (.alt p q) x z Q := by
  intro b d o ha
  obtain ⟨ts, hts, hqts⟩ := hq b d o ha
  exact ⟨ts, by simp only [run, hp b d o ha, hts], hqts⟩

theorem Takes.labelled {role : Role} (h : Takes m p x z Q) :
    Takes m (.labelled role p) x z fun ts => ∃ us, Q us ∧
      ts = us.map fun t => if t.kind == .comment then t else t.withRole role := by
  intro b d o ha
  obtain ⟨ts, hts, hq⟩ := h b d o ha
  exact ⟨_, by simp only [run, hts, Option.map_some], ts, hq, rfl⟩

theorem run_lexeme {scan : Scan} {call : Rule → Reader} (hg : Trivia g) (hs : Solid (y ++ z))
    (h : scan (y ++ z) = some y.length) {b : Nat} (hb : (g ++ y ++ z).length ≤ b) (o : Nat) :
    ∃ cs, (∀ t ∈ cs, IsRemark t) ∧ run b call (.lexeme k scan) ⟨g ++ y ++ z, o⟩ =
      some (cs ++ [.leaf k (o + g.length) y], ⟨z, o + (g ++ y).length⟩) := by
  rw [List.append_assoc] at hb ⊢
  obtain ⟨cs, hcs, hskip⟩ := Cursor.skipsTo_append hg hs
    (by rw [List.length_append] at hb; omega : g.length ≤ b) o
  refine ⟨cs, hcs, ?_⟩
  simp [run, hskip, h, Cursor.advance, Nat.add_assoc]

theorem takes_lexeme {scan : Scan} (hg : Trivia g) (hs : Solid (y ++ z))
    (h : scan (y ++ z) = some y.length) :
    Takes m (.lexeme k scan) (g ++ y) z (Last fun w => ∃ o, w = .leaf k o y) := by
  intro b d o ha
  obtain ⟨cs, hcs, hrun⟩ := run_lexeme hg hs h ha.bound o
  exact ⟨_, hrun, cs, _, rfl, hcs, _, rfl⟩

/-- A lexeme right here comes without comments. -/
theorem takes_lexeme_here {scan : Scan} (hs : Solid (y ++ z)) (h : scan (y ++ z) = some y.length) :
    Takes m (.lexeme k scan) y z (Single fun w => ∃ o, w = .leaf k o y) := by
  intro b d o ha
  refine ⟨_, ?_, _, rfl, o, rfl⟩
  simp [run, Cursor.skipTrivia_of_solid hs, h, Cursor.advance]

/-- A node around what is taken behind blanks and comments. -/
theorem Takes.node (h : Takes m p x z Q) (hg : Trivia g) (hs : Solid (x ++ z)) :
    Takes m (.node k p) (g ++ x) z (Last fun w => ∃ o cs, Q cs ∧ w = .node k none o x cs) := by
  intro b d o ha
  obtain ⟨hb, hd⟩ := ha
  simp only [List.append_assoc, List.length_append] at hb hd ⊢
  obtain ⟨cs, hcs, hskip⟩ := Cursor.skipsTo_append hg hs (by omega : g.length ≤ b) o
  obtain ⟨ts, hts, hq⟩ := h b d (o + g.length)
    ⟨by rw [List.length_append]; omega, by rw [List.length_append]; omega⟩
  refine ⟨_, ?_, cs, _, rfl, hcs, o + g.length, ts, hq, rfl⟩
  simp only [run, hskip, hts, Cursor.textTo_append, ← Nat.add_assoc]

/-- A node around what is taken right here. -/
theorem Takes.node_here (h : Takes m p x z Q) (hs : Solid (x ++ z)) :
    Takes m (.node k p) x z (Single fun w => ∃ o cs, Q cs ∧ w = .node k none o x cs) := by
  intro b d o ha
  obtain ⟨ts, hts, hq⟩ := h b d o ha
  refine ⟨_, ?_, _, rfl, o, ts, hq, rfl⟩
  simp only [run, Cursor.skipTrivia_of_solid hs, hts, Cursor.textTo_append, List.nil_append]

/-! ### Refusal -/

theorem refuses_seq (h : Refuses m p z) : Refuses m (.seq p q) z := by
  intro b d o ha
  simp only [run, h b d o ha]

/-- The second of two patterns may refuse as well as the first. -/
theorem Takes.refuses_seq (hp : Takes m p x z Q) (hx : x ≠ []) (hq : Refuses 20 q z) :
    Refuses m (.seq p q) (x ++ z) := by
  intro b d o ha
  obtain ⟨ts, hts, -⟩ := hp b d o ha
  simp only [run, hts, hq b d _ (ha.tail hx)]

theorem Passes.refuses_seq (hp : Passes m p z) (hq : Refuses m q z) : Refuses m (.seq p q) z := by
  intro b d o ha
  simp only [run, hp b d o ha, hq b d o ha]

theorem refuses_rule {r : Rule} (h : Refuses m (grammar r) z) : Refuses (m + 1) (.rule r) z := by
  intro b d o ha
  obtain ⟨hb, hd⟩ := ha
  obtain ⟨d, rfl⟩ : ∃ e, d = e + 1 := ⟨d - 1, by omega⟩
  exact h b d o ⟨hb, by omega⟩

theorem refuses_node (hg : Trivia g) (hs : Solid z) (h : Refuses m p z) :
    Refuses m (.node k p) (g ++ z) := by
  intro b d o ha
  have hb := ha.bound
  rw [List.length_append] at hb
  obtain ⟨cs, -, hskip⟩ := Cursor.skipsTo_append hg hs (by omega : g.length ≤ b) o
  simp only [run, hskip, h b d _ ha.drop]

/-- A pattern that may be left out is left out where it refuses. -/
theorem passes_opt (h : Refuses m p z) : Passes m (opt p) z := by
  intro b d o ha
  simp only [opt, run, h b d o ha]

theorem passes_many (h : Refuses m p z) : Passes m (.many p) z := by
  intro b d o ha
  cases b with
  | zero => rfl
  | succ b => simp only [run, repeatRead, h _ d o ha]

/-- A step behind what must go on here fails if what follows does. -/
theorem refuses_continues {e : Ending} {r : Text} (hz : Next z r) (h : Fails r q) :
    Refuses m (.seq (continues e) q) z := by
  intro b d o ha
  have hq := refuses_of_fails hz h b d o ha
  cases e <;> simp only [continues, run, hq]
  all_goals
    split
    · rfl
    · next l next he =>
      split at he
      · cases he
      · cases he
        simp only [hq]

/-! ### Repetition -/

/-- Repeating a pattern takes `x` in front of `z`. -/
def Repeats (p : P) (x z : Text) : Prop :=
  ∀ b d o fuel, Ample 20 b d (x ++ z) → x.length ≤ fuel →
    ∃ ts, repeatRead (run b (grammar.read b d) p) fuel ⟨x ++ z, o⟩ = (ts, ⟨z, o + x.length⟩) ∧
      Sane ts

theorem repeats_nil (h : Refuses 20 p z) : Repeats p [] z := by
  intro b d o fuel ha hfuel
  refine ⟨[], ?_, by simp [Sane]⟩
  cases fuel with
  | zero => rfl
  | succ fuel => simp only [repeatRead, List.nil_append, h b d o ha]; rfl

theorem repeats_cons (h : Takes 20 p y (x ++ z) Sane) (hy : y ≠ []) (hx : Repeats p x z) :
    Repeats p (y ++ x) z := by
  intro b d o fuel ha hfuel
  have hpos := List.length_pos_of_ne_nil hy
  rw [List.length_append] at hfuel
  obtain ⟨fuel, rfl⟩ : ∃ f, fuel = f + 1 := ⟨fuel - 1, by omega⟩
  rw [List.append_assoc] at ha ⊢
  obtain ⟨ts, hts, hsane⟩ := h b d o ha
  obtain ⟨us, hus, hmore⟩ := hx b d (o + y.length) fuel (ha.tail hy) (by omega)
  have hmoved : (o + y.length == o) = false := by rw [beq_eq_false_iff_ne]; omega
  refine ⟨ts ++ us, ?_, fun t ht => (List.mem_append.1 ht).elim (hsane t) (hmore t)⟩
  rw [repeatRead, hts]
  simp only [hmoved, hus, List.length_append, Nat.add_assoc]
  rfl

theorem Repeats.takes (h : Repeats p x z) : Takes 20 (.many p) x z Sane := by
  intro b d o ha
  have hb := ha.bound
  rw [List.length_append] at hb
  obtain ⟨ts, hts, hsane⟩ := h b d o b ha (by omega)
  exact ⟨ts, by simp only [run, hts], hsane⟩

/-! ### Growth -/

variable {again : Bool} {role : Option Role} {base step : P} {i : Nat}

/-- Growing has come to a node with `R` over `x`, in front of `z`, in `i` steps. -/
def Grows (m : Nat) (role : Option Role) (base step : P) (i : Nat) (x z : Text)
    (R : SyntaxTree → Prop) : Prop :=
  ∀ b d o, Ample m b d (x ++ z) → ∃ t c w,
    run b (grammar.read b d) base ⟨x ++ z, o⟩ = some ([t], c) ∧
    (∀ fuel, growMany anyKind role (run b (grammar.read b d) step) ⟨x ++ z, o⟩ (fuel + i) t c =
      growMany anyKind role (run b (grammar.read b d) step) ⟨x ++ z, o⟩ fuel w ⟨z, o + x.length⟩) ∧
    R w

/-- The node that takes another one for its first child, with comments between it and the rest. -/
def Grafted (role : Option Role) (x : Text) (first outer w : SyntaxTree) : Prop :=
  ∃ o cs, (∀ t ∈ cs, IsRemark t) ∧ w = .node outer.kind outer.role o x
    (role.elim first first.withRole :: cs ++ outer.children)

theorem Takes.grows {R : SyntaxTree → Prop} (h : Takes m base x z (Single R)) :
    Grows m role base step 0 x z R := by
  intro b d o ha
  obtain ⟨_, hw, w, rfl, hr⟩ := h b d o ha
  exact ⟨w, _, w, hw, fun _ => rfl, hr⟩

theorem splitLast_concat (before : List SyntaxTree) (last : SyntaxTree) :
    splitLast (before ++ [last]) = some (before, last) := by
  induction before with
  | nil => rfl
  | cons t before ih =>
    cases before with
    | nil => rfl
    | cons u before =>
      rw [List.cons_append, List.cons_append, splitLast, ← List.cons_append, ih]
      rfl

theorem Grows.more {R S : SyntaxTree → Prop} (h : Grows m role base step i x (y ++ z) R)
    (hx : x ≠ []) (hstep : Takes 20 step y z (Last S)) :
    Grows m role base step (i + 1) (x ++ y) z fun w =>
      ∃ first outer, R first ∧ S outer ∧ Grafted role (x ++ y) first outer w := by
  intro b d o ha
  rw [List.append_assoc] at ha ⊢
  obtain ⟨t, c, w, hbase, hgrow, hr⟩ := h b d o ha
  obtain ⟨_, hts, cs, outer, rfl, hcs, hs⟩ := hstep b d (o + x.length) (ha.tail hx)
  refine ⟨t, c, _, hbase, fun fuel => ?_, w, outer, hr, hs, o, cs, hcs, rfl⟩
  have hlen : o + x.length + y.length = o + (x ++ y).length := by
    rw [List.length_append, Nat.add_assoc]
  have honce : growOnce anyKind role (run b (grammar.read b d) step) ⟨x ++ (y ++ z), o⟩ w
      ⟨y ++ z, o + x.length⟩ = some (.node outer.kind outer.role o (x ++ y)
        (role.elim w w.withRole :: cs ++ outer.children), ⟨z, o + (x ++ y).length⟩) := by
    unfold growOnce
    simp only [anyKind, hts, splitLast_concat, hlen, ← List.append_assoc, Cursor.textTo_append]
    cases role <;> rfl
  rw [← Nat.add_assoc, Nat.add_right_comm, hgrow, growMany, honce]

/-- Growth comes to an end where no step can be made. -/
theorem Grows.takes {R : SyntaxTree → Prop} (h : Grows m role base step i x z R)
    (hi : i ≤ if again then x.length else 1) (hz : Refuses m step z) (hs : Solid (x ++ z)) :
    Takes m (.grow again anyKind role base step) x z (Single R) := by
  intro b d o ha
  obtain ⟨t, c, w, hbase, hgrow, hr⟩ := h b d o ha
  have hb := ha.bound
  rw [List.length_append] at hb
  obtain ⟨fuel, hfuel⟩ : ∃ fuel, (if again then b else 1) = fuel + i :=
    ⟨(if again then b else 1) - i, by split at hi <;> simp_all; omega⟩
  have hend : growMany anyKind role (run b (grammar.read b d) step) ⟨x ++ z, o⟩ fuel w
      ⟨z, o + x.length⟩ = (w, ⟨z, o + x.length⟩) := by
    cases fuel with
    | zero => rfl
    | succ fuel =>
      have honce : growOnce anyKind role (run b (grammar.read b d) step) ⟨x ++ z, o⟩ w
          ⟨z, o + x.length⟩ = none := by
        unfold growOnce
        simp only [anyKind, hz b d _ ha.drop]
        rfl
      rw [growMany, honce]
  refine ⟨[w], ?_, w, rfl, hr⟩
  simp only [run, Cursor.skipTrivia_of_solid hs, hbase, splitLast, hfuel, hgrow, hend,
    List.nil_append]

/-- A node that may grow once only ends there. -/
theorem Grows.takes_once {R : SyntaxTree → Prop} (h : Grows m role base step 1 x z R)
    (hs : Solid (x ++ z)) : Takes m (.grow false anyKind role base step) x z (Single R) := by
  intro b d o ha
  obtain ⟨t, c, w, hbase, hgrow, hr⟩ := h b d o ha
  refine ⟨[w], ?_, w, rfl, hr⟩
  have hone := hgrow 0
  rw [Nat.zero_add] at hone
  simp only [run, Cursor.skipTrivia_of_solid hs, hbase, splitLast, List.nil_append, if_neg,
    Bool.false_eq_true, not_false_eq_true, hone]
  rfl

end

/-! ## Blanks and comments before a pattern -/

/-- Rules of types, which skip blanks and comments before anything else. -/
def RuleSkips : Rule → Prop
  | .type _ | .union _ | .unionOperand _ | .intersection _ | .intersectionOperand _
  | .typeOperand _ | .primaryType _ | .typeArguments => True
  | _ => False

/-- A pattern that skips blanks and comments before anything else. -/
@[simp] def SkipsFirst : P → Prop
  | .lexeme _ _ | .node _ _ | .grow _ _ _ _ _ => True
  | .seq p _ | .labelled _ p => SkipsFirst p
  | .alt p q => SkipsFirst p ∧ SkipsFirst q
  | .rule r => RuleSkips r
  | _ => False

theorem skipsFirst_of_ruleSkips {r : Rule} (h : RuleSkips r) : SkipsFirst (grammar r) := by
  cases r <;> simp_all [RuleSkips, grammar, type, union, unionOperand, intersection,
    intersectionOperand, typeOperand, primaryType, typeArguments, alts, importedType]

theorem run_of_skipsFirst {b : Nat} {call : Rule → Reader} {c c' : Cursor} {cs : List SyntaxTree}
    (hcs : ∀ t ∈ cs, IsRemark t) (hc : c.skipTrivia b = (cs, c')) (hc' : c'.skipTrivia b = ([], c'))
    (hcall : ∀ {r : Rule}, RuleSkips r → call r c = (call r c').map fun l => (cs ++ l.1, l.2))
    {p : P} (h : SkipsFirst p) :
    run b call p c = (run b call p c').map fun l => (cs ++ l.1, l.2) := by
  induction p with
  | lexeme k scan =>
    simp only [run, hc, hc']
    cases scan c'.rest with
    | none => rfl
    | some n => rfl
  | node k p _ =>
    simp only [run, hc, hc']
    cases run b call p c' with
    | none => rfl
    | some l => rfl
  | grow again allowed role base step _ _ =>
    simp only [run, hc, hc']
    cases run b call base c' with
    | none => rfl
    | some l =>
      cases hl : splitLast l.1 with
      | none => simp only [hl, Option.map_none]
      | some l => simp [hl]
  | rule r => exact hcall h
  | seq p q ihp _ =>
    simp only [run, ihp h]
    cases run b call p c' with
    | none => rfl
    | some l =>
      simp only [Option.map_some]
      cases run b call q l.2 with
      | none => rfl
      | some r => simp
  | alt p q ihp ihq =>
    simp only [run, ihp h.1, ihq h.2]
    cases run b call p c' with
    | none => rfl
    | some l => rfl
  | labelled role p ih =>
    have hsame : cs.map (fun t => if t.kind == .comment then t else t.withRole role) = cs := by
      rw [List.map_congr_left fun t ht => if_pos (beq_iff_eq.2 (hcs t ht).kind), List.map_id']
    simp only [run, ih h]
    cases run b call p c' with
    | none => rfl
    | some l => simp only [Option.map_some, List.map_append, hsame]
  | nothing | glued | many | ahead | absent | lineEnd => cases h

theorem read_of_ruleSkips {b : Nat} {c c' : Cursor} {cs : List SyntaxTree}
    (hcs : ∀ t ∈ cs, IsRemark t) (hc : c.skipTrivia b = (cs, c')) (hc' : c'.skipTrivia b = ([], c'))
    (d : Nat) {r : Rule} (h : RuleSkips r) :
    grammar.read b d r c = (grammar.read b d r c').map fun l => (cs ++ l.1, l.2) := by
  induction d generalizing r with
  | zero => rfl
  | succ d ih => exact run_of_skipsFirst hcs hc hc' ih (skipsFirst_of_ruleSkips h)

/-- Blanks and comments may stand before what is taken. -/
theorem Takes.behind {m : Nat} {p : P} {g x z : Text} {Q : List SyntaxTree → Prop}
    (h : Takes m p x z Q) (hp : SkipsFirst p) (hg : Trivia g) (hs : Solid (x ++ z)) :
    Takes m p (g ++ x) z fun ts => ∃ cs us, ts = cs ++ us ∧ (∀ t ∈ cs, IsRemark t) ∧ Q us := by
  intro b d o ha
  obtain ⟨hb, hd⟩ := ha
  simp only [List.append_assoc, List.length_append] at hb hd ⊢
  obtain ⟨cs, hcs, hskip⟩ := Cursor.skipsTo_append hg hs (by omega : g.length ≤ b) o
  have hsolid := Cursor.skipTrivia_of_solid hs b (o + g.length)
  obtain ⟨ts, hts, hq⟩ := h b d (o + g.length)
    ⟨by rw [List.length_append]; omega, by rw [List.length_append]; omega⟩
  refine ⟨cs ++ ts, ?_, cs, ts, rfl, hcs, hq⟩
  rw [run_of_skipsFirst hcs hskip hsolid (read_of_ruleSkips hcs hskip hsolid d) hp, hts,
    Option.map_some, Nat.add_assoc]

/-! ## Signs, words and choices -/

section

variable {m : Nat} {p q : P} {x y z g : Text} {k : Kind} {Q : List SyntaxTree → Prop}

theorem sane_of_last {R : SyntaxTree → Prop} (hR : ∀ w, R w → ¬ w.Broken) {ts : List SyntaxTree}
    (h : Last R ts) : Sane ts := by
  obtain ⟨cs, w, rfl, hcs, hw⟩ := h
  intro t ht
  rcases List.mem_append.1 ht with ht | ht
  · exact (hcs t ht).whole
  · rw [List.mem_singleton.1 ht]
    exact hR w hw

theorem Takes.seq_sane (hp : Takes m p x (y ++ z) Sane) (hx : x ≠ []) (hq : Takes 20 q y z Sane) :
    Takes m (.seq p q) (x ++ y) z Sane :=
  (hp.seq hx hq).imp fun ts h => by
    obtain ⟨l, r, rfl, hl, hr⟩ := h
    exact fun t ht => (List.mem_append.1 ht).elim (hl t) (hr t)

theorem takes_sane {scan : Scan} (hk : k ≠ .error ∧ k ≠ .missing) (hg : Trivia g)
    (hs : Solid (y ++ z)) (h : scan (y ++ z) = some y.length) :
    Takes m (.lexeme k scan) (g ++ y) z Sane :=
  (takes_lexeme hg hs h).imp fun ts => sane_of_last fun w hw => by
    obtain ⟨o, rfl⟩ := hw
    exact SyntaxTree.not_broken_leaf hk.1 hk.2

theorem length_ofString (s : String) : (Text.ofString s).length = s.length := by
  rw [Text.ofString, List.length_map, String.length_toList]

theorem takes_sym (hg : Trivia g) {s : String} (hs : Solid (Text.ofString s ++ z)) :
    Takes m (sym s) (g ++ Text.ofString s) z Sane :=
  takes_sane (by simp) hg hs (by rw [scanSymbol_append, length_ofString])

theorem takes_word (hg : Trivia g) {w : String} (hs : Solid (Text.ofString w ++ z))
    (hz : Stops z) : Takes m (word w) (g ++ Text.ofString w) z Sane :=
  takes_sane (by simp) hg hs (by rw [scanWord_append hz, length_ofString])

/-- A choice takes what one of its patterns takes if those before it refuse. -/
theorem takes_alts {ps : List P} {n : Nat} (hn : ps[n]? = some p)
    (h : ∀ q ∈ ps.take n, Refuses m q (x ++ z)) (hp : Takes m p x z Q) :
    Takes m (alts ps) x z Q := by
  induction ps generalizing n with
  | nil => cases hn
  | cons q ps ih =>
    cases n with
    | zero =>
      cases hn
      cases ps with
      | nil => exact hp
      | cons r ps => exact hp.left
    | succ n =>
      obtain ⟨hq, hmore⟩ := List.forall_mem_cons.1 h
      have htail := ih hn hmore
      cases ps with
      | nil => cases hn
      | cons r ps => exact .right hq htail

theorem isGap_of_isLineBlank {c : Char} (h : isLineBlank c = true) : isGap c = true := by
  simp only [isLineBlank, Bool.or_eq_true, Bool.and_eq_true, decide_eq_true_eq, beq_iff_eq] at h
  simp only [isGap, Bool.or_eq_true, Bool.and_eq_true, decide_eq_true_eq, beq_iff_eq]
  omega

/-- Blanks of one line. -/
def Inline (g : Text) : Prop :=
  ∀ p ∈ g, p.satisfies (fun c => isLineBlank c && c != '\n') false = true

instance (g : Text) : Decidable (Inline g) := inferInstanceAs (Decidable (∀ _ ∈ _, _))

theorem Inline.cons {p : CodePoint} (h : Inline (p :: g)) :
    ∃ c, p = .scalar c ∧ isLineBlank c = true ∧ c ≠ '\n' := by
  have hp := (List.forall_mem_cons.1 h).1
  cases p with
  | surrogate n => cases hp
  | scalar c =>
    simp only [CodePoint.satisfies, Bool.and_eq_true, bne_iff_ne] at hp
    exact ⟨c, rfl, hp⟩

theorem Inline.endsLine {e : Ending} {c : Char} (hg : Inline g)
    (hc : isGap c = false ∧ c.toNat ≠ 0 ∧ c ≠ '\x7d') (z : Text) :
    endsLine e (g ++ .scalar c :: z) = false := by
  induction g with
  | nil =>
    have hblank : ¬ isLineBlank c = true := fun h => by simp [isGap_of_isLineBlank h] at hc
    have hbreak : c ≠ '\n' := by rintro rfl; cases hc.1
    simp [Source.endsLine, hc, hbreak, hblank]
  | cons p g ih =>
    obtain ⟨a, rfl, hblank, hbreak⟩ := hg.cons
    have hzero : a.toNat ≠ 0 := by intro h; simp [isLineBlank, h] at hblank
    have hbrace : a ≠ '\x7d' := by rintro rfl; cases hblank
    simp [Source.endsLine, hzero, hbrace, hbreak, hblank, ih (List.forall_mem_cons.1 hg).2]

/-- Blanks without comments. -/
def Blank (g : Text) : Prop := ∀ p ∈ g, p.satisfies isGap false = true

instance (g : Text) : Decidable (Blank g) := inferInstanceAs (Decidable (∀ _ ∈ _, _))

theorem Inline.blank (h : Inline g) : Blank g := by
  intro p hp
  have hin := h p hp
  cases p with
  | surrogate n => cases hin
  | scalar c =>
    simp only [CodePoint.satisfies, Bool.and_eq_true] at hin ⊢
    exact isGap_of_isLineBlank hin.1

theorem Blank.trivia (h : Blank g) : Trivia g := by
  induction g with
  | nil => exact .nil
  | cons p g ih =>
    obtain ⟨hp, hg⟩ := List.forall_mem_cons.1 h
    cases p with
    | surrogate n => cases hp
    | scalar c => exact .gap hp (ih hg)

theorem Blank.skipGap {c : Char} (hg : Blank g) (hc : isGap c = false) (z : Text) (o : Nat) :
    (Cursor.mk (g ++ .scalar c :: z) o).skipGap = ⟨.scalar c :: z, o + g.length⟩ := by
  have hcount : Text.countWhile isGap (g ++ .scalar c :: z) = g.length := by
    induction g with
    | nil => simp [Text.countWhile, hc]
    | cons p g ih =>
      obtain ⟨hp, hrest⟩ := List.forall_mem_cons.1 hg
      cases p with
      | surrogate n => cases hp
      | scalar a => simp [Text.countWhile, show isGap a = true from hp, ih hrest]
  simp [Cursor.skipGap, hcount, Cursor.advance]

theorem Blank.skipTrivia (hg : Blank g) (hs : Solid z) (b o : Nat) :
    Cursor.skipTrivia b ⟨g ++ z, o⟩ = ([], ⟨z, o + g.length⟩) := by
  obtain ⟨c, t, rfl, hgap, hslash⟩ := hs
  have hcomment : scanComment (.scalar c :: t) = none := by
    simp [scanComment, Text.after?, CodePoint.is, hslash.symm]
  cases b with
  | zero => rw [Cursor.skipTrivia, hg.skipGap hgap]
  | succ b => rw [Cursor.skipTrivia, hg.skipGap hgap]; simp only [hcomment]

/-- Blanks before what is taken leave no trace. -/
theorem Takes.behind_blank (h : Takes m p x z Q) (hp : SkipsFirst p) (hg : Blank g)
    (hs : Solid (x ++ z)) : Takes m p (g ++ x) z Q := by
  intro b d o ha
  rw [List.append_assoc] at ha ⊢
  have hskip := hg.skipTrivia hs b o
  have hsolid := Cursor.skipTrivia_of_solid hs b (o + g.length)
  have hnone : ∀ t ∈ ([] : List SyntaxTree), IsRemark t := by simp
  obtain ⟨ts, hts, hq⟩ := h b d (o + g.length) ha.drop
  refine ⟨ts, ?_, hq⟩
  rw [run_of_skipsFirst hnone hskip hsolid (read_of_ruleSkips hnone hskip hsolid d) hp, hts,
    Option.map_some, List.nil_append, List.length_append, Nat.add_assoc]

/-- A lexeme on the same line goes on with what is before it. -/
theorem passes_continues {e : Ending} {c : Char} (hg : Inline g)
    (hc : isGap c = false ∧ c ≠ '/' ∧ c.toNat ≠ 0 ∧ c ≠ '\x7d') (z : Text) :
    Passes m (continues e) (g ++ .scalar c :: z) := by
  intro b d o _
  obtain ⟨hgap, hslash, hother⟩ := hc
  have hends := hg.endsLine (e := e) ⟨hgap, hother⟩ z
  have hline : Cursor.skipLineEnd e b ⟨g ++ .scalar c :: z, o⟩ = none := by
    have hcomment : scanComment (.scalar c :: z) = none := by
      simp [scanComment, Text.after?, CodePoint.is, hslash.symm]
    cases b with
    | zero => rw [Cursor.skipLineEnd, hends]; rfl
    | succ b => rw [Cursor.skipLineEnd, hends, hg.blank.skipGap hgap]; simp only [hcomment]; rfl
  cases e <;> simp only [continues, run, hline]

theorem passes_inside (z : Text) : Passes m (continues .inside) z := fun _ _ _ _ => rfl

end

end Scaffold.Source
