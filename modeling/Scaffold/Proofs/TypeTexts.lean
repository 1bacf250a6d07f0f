/-
  How types are written.

  `Spelt e level kind x`: the text `x` is a type of this kind, written with blanks and comments
  wherever they may stand. The levels are those of the grammar, from types that brackets can follow
  to whole types; `e` tells where a line end may end the type. What a type starts with is the same
  whatever follows it (`Spelt.starts`), and so is what it does not start with (`Starts.lacks`,
  `Starts.lacks_word`).

  Not all types are covered: template literals, types of constructors, mapped types and types that
  are fetched from other modules are left out.
-/
import Mathlib
import Scaffold.Proofs.Taking

namespace Scaffold.Source

open Pattern Grammar

/-! ## Nodes -/

theorem SyntaxTree.broken_withRole {t : SyntaxTree} {r : Role} :
    (t.withRole r).Broken ↔ t.Broken := by
  cases t
  rw [SyntaxTree.broken_iff, SyntaxTree.broken_iff]
  rfl

/-- A kind that marks no broken source. -/
def Kind.Sound (k : Kind) : Prop := k ≠ .error ∧ k ≠ .missing

instance (k : Kind) : Decidable k.Sound := inferInstanceAs (Decidable (_ ∧ _))

theorem isNode_leaf {k : Kind} (hk : k.Sound) (o : Nat) (x : Text) : IsNode k x (.leaf k o x) :=
  ⟨rfl, rfl, SyntaxTree.not_broken_leaf hk.1 hk.2⟩

theorem isNode_node {k : Kind} (hk : k.Sound) {r : Option Role} {o : Nat} {x : Text}
    {cs : List SyntaxTree} (hcs : Sane cs) : IsNode k x (.node k r o x cs) := by
  refine ⟨rfl, rfl, fun hb => ?_⟩
  rcases SyntaxTree.broken_iff.1 hb with he | ⟨c, hc, hb⟩
  · simp [SyntaxTree.isError, SyntaxTree.kind, hk.1, hk.2] at he
  · exact hcs c hc hb

/-- A node that takes an unbroken one for its first child stays unbroken. -/
theorem isNode_of_grafted {k : Kind} (hk : k.Sound) {x y : Text} {role : Option Role}
    {first outer w : SyntaxTree} (hfirst : ¬ first.Broken) (houter : IsNode k y outer)
    (h : Grafted role x first outer w) : IsNode k x w := by
  obtain ⟨o, cs, hcs, rfl⟩ := h
  rw [houter.kind]
  refine isNode_node hk fun t ht => ?_
  rcases List.mem_cons.1 ht with rfl | ht
  · cases role with
    | none => exact hfirst
    | some r => exact mt SyntaxTree.broken_withRole.1 hfirst
  · rcases List.mem_append.1 ht with ht | ht
    · exact (hcs t ht).whole
    · exact fun hb => houter.whole (SyntaxTree.broken_iff.2 (Or.inr ⟨t, ht, hb⟩))

section

variable {m i : Nat} {p base step : P} {role : Option Role} {x y z g : Text} {k k' : Kind}

theorem Takes.node_last (h : Takes m p x z Sane) (hk : k.Sound) (hg : Trivia g)
    (hs : Solid (x ++ z)) : Takes m (.node k p) (g ++ x) z (Last (IsNode k x)) :=
  (h.node hg hs).imp <| by
    rintro ts ⟨cs, w, hts, hcs, o, us, hus, rfl⟩
    exact ⟨cs, _, hts, hcs, isNode_node hk hus⟩

theorem Takes.node_single (h : Takes m p x z Sane) (hk : k.Sound) (hs : Solid (x ++ z)) :
    Takes m (.node k p) x z (Single (IsNode k x)) :=
  (h.node_here hs).imp <| by
    rintro ts ⟨w, hts, o, us, hus, rfl⟩
    exact ⟨_, hts, isNode_node hk hus⟩

/-- A type behind blanks and comments. -/
theorem Takes.behind_sane (h : Takes m p x z (Single (IsNode k x))) (hp : SkipsFirst p)
    (hg : Trivia g) (hs : Solid (x ++ z)) : Takes m p (g ++ x) z Sane :=
  (h.behind hp hg hs).imp <| by
    rintro ts ⟨cs, us, rfl, hcs, w, rfl, hw⟩ t ht
    rw [List.mem_append, List.mem_singleton] at ht
    rcases ht with ht | rfl
    · exact (hcs t ht).whole
    · exact hw.whole

theorem Grows.node (h : Grows m role base step i x (y ++ z) (IsNode k x)) (hx : x ≠ [])
    (hk : k'.Sound) {t : Text} (hstep : Takes 20 step y z (Last (IsNode k' t))) :
    Grows m role base step (i + 1) (x ++ y) z (IsNode k' (x ++ y)) := by
  intro b d o ha
  obtain ⟨t, c, w, hbase, hgrow, first, outer, hfirst, houter, hw⟩ := h.more hx hstep b d o ha
  exact ⟨t, c, w, hbase, hgrow, isNode_of_grafted hk hfirst.whole houter hw⟩

end

/-! ## What follows a type -/

/-- A name has ended behind a blank or a comment. -/
theorem Trivia.stops {g z : Text} (hg : Trivia g) (hz : g = [] → Stops z) : Stops (g ++ z) := by
  cases hg with
  | nil => exact hz rfl
  | @gap c t hc _ =>
    refine ⟨c, t ++ z, rfl, ?_, ?_⟩
    · by_contra h
      rw [Bool.not_eq_false] at h
      rw [isGap_of_isNameChar h] at hc
      cases hc
    · rintro rfl
      cases hc
  | line => exact ⟨'/', _, rfl, by decide, by decide⟩
  | block => exact ⟨'/', _, rfl, by decide, by decide⟩

/-- Blanks and comments start with no other character. -/
theorem Trivia.head {g z : Text} (hg : Trivia g) {d : Char} (hd : isGap d = false ∧ d ≠ '/')
    (hz : ∃ c t, z = .scalar c :: t ∧ c ≠ d) : ∃ c t, g ++ z = .scalar c :: t ∧ c ≠ d := by
  cases hg with
  | nil => exact hz
  | @gap c t hc _ =>
    refine ⟨c, t ++ z, rfl, ?_⟩
    rintro rfl
    simp [hd.1] at hc
  | line => exact ⟨'/', _, rfl, hd.2.symm⟩
  | block => exact ⟨'/', _, rfl, hd.2.symm⟩

theorem isNameChar_of_isAsciiDigit {c : Char} (h : Text.isAsciiDigit c = true) :
    isNameChar c = true := by
  have halnum : Text.isAsciiAlphanumeric c = true := by
    simp only [Text.isAsciiDigit] at h
    simp [Text.isAsciiAlphanumeric, h]
  have hlt : c.toNat < 128 := by
    rw [Naming.isAsciiAlphanumeric_iff] at halnum
    omega
  simp [isNameChar, hlt, halnum]

/-- A sign of the grammar: no character of a name, and no blank. -/
def IsSign (c : Char) : Prop := isGap c = false ∧ c ≠ '/' ∧ isNameChar c = false ∧ c ≠ '\\'

instance (c : Char) : Decidable (IsSign c) := inferInstanceAs (Decidable (_ ∧ _))

theorem IsSign.solid {c : Char} (h : IsSign c) (t : Text) : Solid (.scalar c :: t) :=
  ⟨c, t, rfl, h.1, h.2.1⟩

theorem IsSign.stops {c : Char} (h : IsSign c) (t : Text) : Stops (.scalar c :: t) :=
  ⟨c, t, rfl, h.2.2.1, h.2.2.2⟩

theorem scanSymbol_of_ne {c d : Char} (h : c ≠ d) (t : Text) {s : String}
    (hs : s.toList.head? = some d) : scanSymbol s (.scalar c :: t) = none := by
  obtain ⟨ds, hds⟩ := List.head?_eq_some_iff.1 hs
  exact scanSymbol_eq_none hds h.symm t

/-- No sign is read where another character stands than its first. -/
theorem scanSymbol_of_head {c : Char} (t : Text) {s : String}
    (hs : (s.toList.head?.any (· != c)) = true) : scanSymbol s (.scalar c :: t) = none := by
  obtain ⟨d, hd, hne⟩ := (Option.any_eq_true _ _).1 hs
  exact scanSymbol_of_ne (bne_iff_ne.1 hne).symm t hd

theorem scanWord_of_head {c : Char} (t : Text) {w : String}
    (hw : (w.toList.head?.any (· != c)) = true) : scanWord w (.scalar c :: t) = none := by
  have hnone := scanSymbol_of_head t hw
  rw [scanSymbol, Option.map_eq_none_iff] at hnone
  rw [scanWord, hnone]

theorem IsSign.lacks_name {c : Char} (h : IsSign c) (t : Text) :
    scanName (.scalar c :: t) = none := by
  have hdigit : Text.isAsciiDigit c = false := by
    by_contra hd
    rw [Bool.not_eq_false] at hd
    exact absurd h.2.2.1 (by simp [isNameChar_of_isAsciiDigit hd])
  simp [scanName, Text.headIs, nameLength_of_stops (h.stops t), hdigit]

/-- A name ends here, and the next lexeme is none of these signs. -/
structure Ends (signs : List String) (z : Text) : Prop where
  stops : Stops z
  next : ∃ r, Next z r ∧ ∀ s ∈ signs, scanSymbol s r = none

theorem Ends.mono {signs others : List String} {z : Text} (h : Ends signs z)
    (hsub : others ⊆ signs) : Ends others z := by
  obtain ⟨r, hnext, hr⟩ := h.next
  exact ⟨h.stops, r, hnext, fun s hs => hr s (hsub hs)⟩

theorem IsSign.ends {c : Char} (h : IsSign c) {signs : List String}
    (hc : ∀ s ∈ signs, (s.toList.head?.any (· != c)) = true) {g : Text} (hg : Trivia g) (t : Text) :
    Ends signs (g ++ .scalar c :: t) := by
  exact ⟨hg.stops fun _ => h.stops t, _, ⟨g, hg, h.solid t, rfl⟩,
    fun s hs => scanSymbol_of_head t (hc s hs)⟩

/-- Patterns that fail on other signs are refused. -/
theorem Ends.refuses {signs : List String} {z : Text} (h : Ends signs z) {m : Nat} {p : P}
    (hp : ∀ r, (∀ s ∈ signs, scanSymbol s r = none) → Fails r p) : Refuses m p z := by
  obtain ⟨r, hnext, hr⟩ := h.next
  exact refuses_of_fails hnext (hp r hr)

theorem Ends.passes {signs : List String} {z : Text} (h : Ends signs z) {m : Nat} {p : P}
    (hp : ∀ r, (∀ s ∈ signs, scanSymbol s r = none) → Idle r p) : Passes m p z := by
  obtain ⟨r, hnext, hr⟩ := h.next
  exact passes_of_idle hnext (hp r hr)

theorem Ends.refuses_step {signs : List String} {z : Text} (h : Ends signs z) {m : Nat} {e : Ending}
    {p : P} (hp : ∀ r, (∀ s ∈ signs, scanSymbol s r = none) → Fails r p) :
    Refuses m (.seq (continues e) p) z := by
  obtain ⟨r, hnext, hr⟩ := h.next
  exact refuses_continues hnext (hp r hr)

/-- Growing comes to a node of a kind over a text, wherever none of these signs follows. -/
def GrowsTo (m : Nat) (base step : P) (signs : List String) (k : Kind) (x : Text) : Prop :=
  ∃ i ≤ x.length, ∀ z, Ends signs z → Grows m none base step i x z (IsNode k x)

theorem Takes.growsTo {m : Nat} {base step : P} {signs : List String} {k : Kind} {x : Text}
    (h : ∀ z, Ends signs z → Takes m base x z (Single (IsNode k x))) :
    GrowsTo m base step signs k x :=
  ⟨0, Nat.zero_le _, fun z hz => (h z hz).grows⟩

/-- A further step, which starts with another sign. -/
theorem GrowsTo.node {m : Nat} {base step : P} {signs : List String} {k k' : Kind} {x g t u : Text}
    {c : Char} (h : GrowsTo m base step signs k x) (hx : x ≠ []) (hk : k'.Sound) (hg : Trivia g)
    (hc : IsSign c) (hsigns : ∀ s ∈ signs, (s.toList.head?.any (· != c)) = true)
    (hstep : ∀ z, Ends signs z → Takes 20 step (g ++ .scalar c :: t) z (Last (IsNode k' u))) :
    GrowsTo m base step signs k' (x ++ (g ++ .scalar c :: t)) := by
  obtain ⟨i, hi, h⟩ := h
  refine ⟨i + 1, ?_, fun z hz => (h _ ?_).node hx hk (hstep z hz)⟩
  · simp only [List.length_append, List.length_cons]
    omega
  · rw [List.append_assoc]
    exact hc.ends hsigns hg _

/-- The signs that follow types. -/
def closers : List Char := ['>', ',', ']', ')', '?', ':', ';', '\x7d']

/-- Nothing that can go on with a type follows, but one of the signs behind types. -/
structure Closes (z : Text) : Prop where
  stops : Stops z
  next : ∃ c t, Next z (.scalar c :: t) ∧ c ∈ closers ∧ (c = '?' → scanSymbol "." t = none)

/-- The signs that go on with a type. -/
def joiners : List String := [".", "?.", "<", "(", "=>", "[", "&", "|", "extends"]

theorem Closes.ends {z : Text} (h : Closes z) : Ends joiners z := by
  obtain ⟨c, t, hnext, hc, hask⟩ := h.next
  refine ⟨h.stops, _, hnext, ?_⟩
  by_cases hq : c = '?'
  · subst hq
    have hdot : Text.after? ['.'] t = none := by simpa [scanSymbol] using hask rfl
    simp [joiners, scanSymbol, Text.after?, CodePoint.is, hdot]
  · have hne : (closers.all fun d => d == '?' || joiners.all fun s => s.toList.head?.any (· != d)) =
        true := by decide
    have hall := List.all_eq_true.1 hne c hc
    rw [Bool.or_eq_true, beq_iff_eq] at hall
    exact fun s hs => scanSymbol_of_head t (List.all_eq_true.1 (hall.resolve_left hq) s hs)

/-- The signs that follow a type and start no longer sign. -/
theorem IsSign.closes {c : Char} (h : IsSign c) (hc : c ∈ closers ∧ c ≠ '?') {g : Text}
    (hg : Trivia g) (t : Text) : Closes (g ++ .scalar c :: t) :=
  ⟨hg.stops fun _ => h.stops t, c, t, ⟨g, hg, h.solid t, rfl⟩, hc.1, fun he => absurd he hc.2⟩

/-- A sign, behind blanks and comments. -/
theorem takes_sign {m : Nat} {g z : Text} (hg : Trivia g) (s : String)
    (hs : (s.toList.head?.any fun c => decide (IsSign c)) = true) :
    Takes m (sym s) (g ++ Text.ofString s) z Sane := by
  obtain ⟨c, hc, hsign⟩ := (Option.any_eq_true _ _).1 hs
  obtain ⟨cs, hcs⟩ := List.head?_eq_some_iff.1 hc
  refine takes_sym hg ?_
  rw [Text.ofString, hcs]
  exact (of_decide_eq_true hsign).solid _

/-- A sign before what is taken. -/
theorem Takes.after_sign {m : Nat} {q : P} {g y z : Text} (h : Takes 20 q y z Sane) (hg : Trivia g)
    (s : String) (hs : (s.toList.head?.any fun c => decide (IsSign c)) = true) :
    Takes m (.seq (sym s) q) (g ++ Text.ofString s ++ y) z Sane := by
  refine (takes_sign hg s hs).seq_sane (List.append_ne_nil_of_right_ne_nil _ fun h => ?_) h
  simp [List.map_eq_nil_iff.1 h] at hs

/-! ## Names and paths -/

theorem scanSymbol_of_name {y : Text} (hy : IsName y) {z : Text} {s : String}
    (hs : (s.toList.head?.any fun d => !isNameChar d && d != '\\') = true) :
    scanSymbol s (y ++ z) = none := by
  obtain ⟨c, t, rfl, hc, -⟩ := hy.exists_head
  cases hd : s.toList with
  | nil => simp [hd] at hs
  | cons d ds =>
    simp only [hd, List.head?_cons, Option.any_some, Bool.and_eq_true, bne_iff_ne,
      Bool.not_eq_true'] at hs
    refine scanSymbol_eq_none hd ?_ _
    rintro rfl
    rcases hc with hc | hc
    · simp [hs.1] at hc
    · exact hs.2 hc

theorem scanNameExcept_append {y z : Text} (hy : IsName y) (hz : Stops z) {ws : List String}
    (hws : y ∉ ws.map Text.ofString) : scanNameExcept ws (y ++ z) = some y.length := by
  rw [scanNameExcept, hy.scanName_append hz]
  simpa using hws

/-- A name that is no word of the types, or a path that starts with one. -/
inductive IsPath : Kind → Text → Prop
  | name {y : Text} : IsName y → y ∉ typeWords.map Text.ofString → IsPath .typeName y
  | member {k : Kind} {x g g' y : Text} : IsPath k x → Trivia g → Trivia g' → IsName y →
      IsPath .nestedTypeName (x ++ (g ++ (Text.ofString "." ++ (g' ++ y))))

/-! ## Types -/

/-- How close a type binds: types that brackets can follow, operands of an intersection, and
    intersections, unions and conditions. -/
inductive Level where
  | primary
  | operand
  | meet
  | union
  | whole

/-- An item of a list, with the sign before it and what stands around that. -/
structure Item where
  gap : Text
  sign : String
  before : Text
  label : Text
  kind : Kind
  text : Text

namespace Item

/-- An item without the sign before it. -/
def body (i : Item) : Text := i.before ++ (i.label ++ i.text)

/-- An item with the sign before it. -/
def unit (i : Item) : Text := i.gap ++ Text.ofString i.sign ++ i.body

/-- An item that may stand in a list with these signs. -/
structure Fits (signs : List String) (Label : Text → Prop) (i : Item) : Prop where
  gap : Trivia i.gap
  sign : i.sign ∈ signs
  before : Trivia i.before
  label : Label i.label

end Item

/-- The items of a list; the sign before the first one is left out. -/
def listed : List Item → Text
  | [] => []
  | i :: items => i.body ++ items.flatMap Item.unit

/-- Items without a name before them. -/
def Bare (label : Text) : Prop := label = []

/-- Perhaps the mark of the optional. -/
def IsMark (mark : Text) : Prop := mark = [] ∨ ∃ g, Trivia g ∧ mark = g ++ Text.ofString "?"

/-- A name that is none of these words, perhaps the mark of the optional, and a colon. -/
def IsLabel (ws : List String) (label : Text) : Prop :=
  ∃ y mark g g', label = y ++ (mark ++ (g ++ Text.ofString ":" ++ g')) ∧ IsName y ∧
    y ∉ ws.map Text.ofString ∧ IsMark mark ∧ Trivia g ∧ Trivia g'

/-- The words that are types. -/
def plainWords : List String :=
  ["any", "number", "boolean", "string", "symbol", "void", "unknown", "never", "object"]

/-- The words that are types with one value. -/
def valueWords : List String := ["true", "false", "null", "undefined"]

/-- Words that may be more than the name of a property. -/
def memberWords : List String :=
  ["public", "private", "protected", "static", "override", "readonly", "async", "get", "set",
   "abstract", "export", "new"]

/-- Words that may be more than the name of a parameter. -/
def parameterWords : List String :=
  ["public", "private", "protected", "override", "readonly"] ++ bindingWords true

/-- Words that the result of a function does not start with. -/
def resultWords : List String := ["asserts", "typeof", "keyof"]

/-- What may stand between a type and a sign that goes on with it. -/
def Joint (e : Ending) (g : Text) : Prop := e = .inside ∨ Inline g

/-- What may stand between the last property and the brace: perhaps a sign, and blanks. -/
def Finishes (last g : Text) : Prop :=
  last = [] ∧ Blank g ∨ Trivia g ∧ ∃ a s, Trivia a ∧ s ∈ [",", ";"] ∧ last = a ++ Text.ofString s

/-- The words before the types that they are applied to. -/
def operatorWords : List String := ["typeof", "keyof"]

/-- The signs that types start with, apart from digits. -/
def startSigns : List Char := ['(', '[', '\x7b', '"', '\'']

/-- What types start with that start with no name. -/
def IsStart (c : Char) : Prop := c ∈ startSigns ∨ Text.isAsciiDigit c = true

/-- Words that may be more than the name of a parameter, and `this`. -/
def accessWords : List String := ["public", "private", "protected", "override", "readonly", "this"]

/-- The start of a type that is no parameter. -/
inductive Grouped : Text → Prop
  | sign {c : Char} {t : Text} : IsStart c → c ∉ ['[', '\x7b'] → Grouped (.scalar c :: t)
  | operator {w : String} {t : Text} : w ∈ operatorWords → Stops t → Grouped (Text.ofString w ++ t)
  | joined {y g : Text} {c : Char} {t : Text} : IsName y → y ∉ accessWords.map Text.ofString →
      Trivia g → Solid (.scalar c :: t) → Stops (g ++ .scalar c :: t) → c ∈ ['<', '&', '|', 'e'] →
      Grouped (y ++ (g ++ .scalar c :: t))

/-- The text of a type of a kind. -/
inductive Spelt : Ending → Level → Kind → Text → Prop
  | path {e : Ending} {k : Kind} {x : Text} : IsPath k x → Spelt e .primary k x
  | keyword {e : Ending} {w : String} : w ∈ plainWords →
      Spelt e .primary .otherType (Text.ofString w)
  | value {e : Ending} {w : String} : w ∈ valueWords →
      Spelt e .primary .literalType (Text.ofString w)
  | string {e : Ending} {q : Char} {body : Text} : q ∈ ['"', '\''] →
      (∀ p ∈ body,
        p.satisfies (fun c => c == q || c == '\\' || c == '\r' || c == '\n') false = false) →
      Spelt e .primary .literalType (.scalar q :: (body ++ [.scalar q]))
  | number {e : Ending} {ds : List Char} : ds ≠ [] → (∀ c ∈ ds, Text.isAsciiDigit c = true) →
      Spelt e .primary .literalType (ds.map .scalar)
  | query {e : Ending} {g y : Text} {steps : List Item} : Trivia g → g ≠ [] → IsName y →
      y ∉ ["import", "this"].map Text.ofString →
      (∀ i ∈ steps, i.Fits ["."] Bare ∧ Joint e i.gap ∧ IsName i.text) →
      Spelt e .primary .otherType (Text.ofString "typeof" ++ (g ++ y ++ steps.flatMap Item.unit))
  | group {e : Ending} {k : Kind} {x g g' : Text} : Trivia g → Spelt .inside .whole k x →
      Grouped x → Trivia g' →
      Spelt e .primary .parenthesizedType
        (Text.ofString "(" ++ (g ++ x ++ (g' ++ Text.ofString ")")))
  | tuple {e : Ending} {first : Item} {items : List Item} {g : Text} :
      (∀ i ∈ first :: items, i.Fits [","] Bare) →
      (∀ i ∈ first :: items, Spelt .inside .whole i.kind i.text) → Trivia g →
      Spelt e .primary .otherType
        (Text.ofString "[" ++ (listed (first :: items) ++ (g ++ Text.ofString "]")))
  | empty {e : Ending} {g : Text} : Trivia g →
      Spelt e .primary .objectType (Text.ofString "\x7b" ++ (g ++ Text.ofString "\x7d"))
  | object {e : Ending} {first : Item} {items : List Item} {last g : Text} :
      (∀ i ∈ first :: items, i.Fits [",", ";"] (IsLabel memberWords)) →
      (∀ i ∈ first :: items, Spelt .member .whole i.kind i.text) → Finishes last g →
      Spelt e .primary .objectType (Text.ofString "\x7b" ++
        (listed (first :: items) ++ (last ++ (g ++ Text.ofString "\x7d"))))
  | generic {e : Ending} {k : Kind} {x g g' : Text} {first : Item} {items : List Item} :
      IsPath k x → Trivia g → (∀ i ∈ first :: items, i.Fits [","] Bare) →
      (∀ i ∈ first :: items, Spelt .inside .whole i.kind i.text) → Trivia g' →
      Spelt e .primary .genericType
        (x ++ (g ++ (Text.ofString "<" ++ (listed (first :: items) ++ (g' ++ Text.ofString ">")))))
  | array {e : Ending} {k : Kind} {x g g' : Text} : Spelt e .primary k x → Trivia g → Joint e g →
      Trivia g' →
      Spelt e .primary .arrayType (x ++ (g ++ (Text.ofString "[" ++ (g' ++ Text.ofString "]"))))
  | lookup {e : Ending} {k k' : Kind} {x g g₁ t g₂ : Text} : Spelt e .primary k x → Trivia g →
      Joint e g → Trivia g₁ → Spelt .inside .whole k' t → Trivia g₂ →
      Spelt e .primary .otherType
        (x ++ (g ++ (Text.ofString "[" ++ (g₁ ++ t ++ (g₂ ++ Text.ofString "]")))))
  | primary {e : Ending} {k : Kind} {x : Text} : Spelt e .primary k x → Spelt e .operand k x
  | keyof {e : Ending} {k : Kind} {x g : Text} : Trivia g → g ≠ [] → Spelt e .primary k x →
      Spelt e .operand .otherType (Text.ofString "keyof" ++ (g ++ x))
  | operand {e : Ending} {k : Kind} {x : Text} : Spelt e .operand k x → Spelt e .meet k x
  | both {e : Ending} {k k' : Kind} {x g g' y : Text} : Spelt e .meet k x → Trivia g → Joint e g →
      Trivia g' → Spelt e .operand k' y →
      Spelt e .meet .otherType (x ++ (g ++ (Text.ofString "&" ++ (g' ++ y))))
  | meet {e : Ending} {k : Kind} {x : Text} : Spelt e .meet k x → Spelt e .union k x
  | either {e : Ending} {k k' : Kind} {x g g' y : Text} : Spelt e .union k x → Trivia g →
      Joint e g → Trivia g' → Spelt e .meet k' y →
      Spelt e .union .unionType (x ++ (g ++ (Text.ofString "|" ++ (g' ++ y))))
  | union {e : Ending} {k : Kind} {x : Text} : Spelt e .union k x → Spelt e .whole k x
  | choice {e : Ending} {k k₁ k₂ k₃ : Kind} {x g g₁ t₁ g₂ g₃ t₂ g₄ g₅ t₃ : Text} :
      Spelt e .union k x → Trivia g → Joint e g → g ≠ [] → Trivia g₁ → g₁ ≠ [] →
      Spelt .inside .whole k₁ t₁ → Trivia g₂ → Trivia g₃ → Spelt .inside .whole k₂ t₂ → Trivia g₄ →
      Trivia g₅ → Spelt e .whole k₃ t₃ →
      Spelt e .whole .otherType
        (x ++ (g ++ (Text.ofString "extends" ++ (g₁ ++ t₁ ++ (g₂ ++ Text.ofString "?" ++
          (g₃ ++ t₂ ++ (g₄ ++ Text.ofString ":" ++ (g₅ ++ t₃))))))))
  | function {e : Ending} {k : Kind} {items : List Item} {g g₁ g₂ t : Text} :
      (∀ i ∈ items, i.Fits [","] (IsLabel parameterWords)) →
      (∀ i ∈ items, Spelt .inside .whole i.kind i.text) → Trivia g → Trivia g₁ → Trivia g₂ →
      Spelt e .whole k t → (∀ w ∈ resultWords, scanWord w t = none) →
      Spelt e .whole .functionType
        (Text.ofString "(" ++ (listed items ++ (g ++ Text.ofString ")" ++
          (g₁ ++ Text.ofString "=>" ++ (g₂ ++ t)))))

/-! ## What types start with -/

/-- Words that start a type and are part of none. -/
def leadWords : List String := ["readonly", "abstract", "new", "infer", "import"]

/-- The signs that no type starts with. -/
def offSigns : List Char := ['/', '|', '&', '<', ']', '\x7d', '.', ',', ')', '>', ':', '?', ';']

/-- What may stand behind the first name of a type: nothing, a sign that goes on with the type, or,
    behind an operator, another type. -/
inductive Behind (y : Text) : Text → Prop
  | nil : Behind y []
  | next {g : Text} {c : Char} {t : Text} : Trivia g → Solid (.scalar c :: t) →
      Stops (g ++ .scalar c :: t) → c ∉ offSigns ∧ y ∈ operatorWords.map Text.ofString ∨
        c ∈ ['.', '<', '[', '&', '|', 'e'] → Behind y (g ++ .scalar c :: t)

/-- A text starts with a name or with a sign that types of a level start with. -/
inductive Starts (l : Level) : Text → Prop
  | sign {c : Char} {t : Text} : IsStart c →
      (c = '(' → l = .whole ∨ ∃ g u, Trivia g ∧ Grouped u ∧ t = g ++ u) → Starts l (.scalar c :: t)
  | name {y r : Text} : IsName y → y ∉ leadWords.map Text.ofString → Behind y r → Starts l (y ++ r)

theorem scanWord_of_ne {y z : Text} (hy : IsName y) (hz : Stops z) {w : String}
    (hw : w.toList.all isNameChar = true) (hne : Text.ofString w ≠ y) :
    scanWord w (y ++ z) = none :=
  scanWord_of_name hy hz (List.all_eq_true.1 hw) hne

theorem IsStart.isGap {c : Char} (h : IsStart c) : isGap c = false := by
  have hall : (startSigns.all fun c => !Source.isGap c) = true := by decide
  rcases h with h | h
  · simpa using List.all_eq_true.1 hall c h
  · exact isGap_of_isNameChar (isNameChar_of_isAsciiDigit h)

theorem IsStart.off {c : Char} (h : IsStart c) : c ∉ offSigns := by
  have hall : (offSigns.all fun c => !startSigns.contains c && !Text.isAsciiDigit c) = true := by
    decide
  intro hm
  have hoff := List.all_eq_true.1 hall c hm
  rcases h with h | h <;> simp [h] at hoff

theorem IsStart.lacks_word {c : Char} (h : IsStart c) (t : Text) {w : String}
    (hw : (w.toList.head?.any fun d => !startSigns.contains d && !Text.isAsciiDigit d) = true) :
    scanWord w (.scalar c :: t) = none := by
  obtain ⟨d, hd, hno⟩ := (Option.any_eq_true _ _).1 hw
  have hne : d ≠ c := by
    rintro rfl
    rcases h with h | h <;> simp [h] at hno
  exact scanWord_of_head t (by simp [hd, hne])

/-- No name starts with a sign. -/
theorem IsStart.lacks_name {c : Char} (h : IsStart c) (t : Text) :
    scanName (.scalar c :: t) = none := by
  rcases h with h | h
  · have hall : (startSigns.all fun c => !isNameChar c && c != '\\') = true := by decide
    have hstop : Stops (.scalar c :: t) := ⟨c, t, rfl, by simpa using List.all_eq_true.1 hall c h⟩
    simp [scanName, nameLength_of_stops hstop, Text.headIs]
  · simp [scanName, Text.headIs, h]

section

variable {l : Level} {x y z r : Text}

theorem Stops.append (h : Stops r) (z : Text) : Stops (r ++ z) := by
  obtain ⟨c, t, rfl, hc⟩ := h
  exact ⟨c, t ++ z, rfl, hc⟩

theorem Grouped.append (h : Grouped x) (z : Text) : Grouped (x ++ z) := by
  cases h with
  | sign hc hne => exact .sign hc hne
  | operator hw ht =>
    rw [List.append_assoc]
    exact .operator hw (ht.append z)
  | joined hy hw hg hs hstop hc =>
    obtain ⟨_, _, ⟨⟩, hsolid⟩ := hs
    have hstop := hstop.append z
    rw [List.append_assoc] at hstop
    rw [List.append_assoc, List.append_assoc]
    exact .joined hy hw hg ⟨_, _, rfl, hsolid⟩ hstop hc

theorem Behind.stops (h : Behind y r) (hz : Stops z) : Stops (r ++ z) := by
  cases h with
  | nil => exact hz
  | next _ _ hstop _ => exact hstop.append z

theorem Starts.mono (h : Starts l x) {l' : Level} (hl : l = .whole → l' = .whole) :
    Starts l' x := by
  cases h with
  | sign hc hparen => exact .sign hc fun h => (hparen h).imp_left hl
  | name hy hw hr => exact .name hy hw hr

/-- A text starts neither with a blank nor with a sign that no type starts with. -/
def Opens (x : Text) : Prop := ∃ c t, x = .scalar c :: t ∧ isGap c = false ∧ c ∉ offSigns

theorem IsName.opens (hy : IsName y) (r : Text) : Opens (y ++ r) := by
  obtain ⟨c, t, rfl, hc, -⟩ := hy.exists_head
  have hall : (offSigns.all fun c => !isNameChar c && c != '\\') = true := by decide
  obtain ⟨_, _, ⟨⟩, hgap, -⟩ := hy.solid r
  refine ⟨c, _, rfl, hgap, fun hm => ?_⟩
  have hoff := List.all_eq_true.1 hall c hm
  rcases hc with hc | hc <;> simp [hc] at hoff

theorem Starts.opens (h : Starts l x) : Opens x := by
  cases h with
  | @sign c t hc _ => exact ⟨c, t, rfl, hc.isGap, hc.off⟩
  | name hy _ _ => exact hy.opens _

theorem Starts.ne_nil (h : Starts l x) : x ≠ [] := by
  obtain ⟨c, t, rfl, -⟩ := h.opens
  simp

theorem Starts.solid (h : Starts l x) (z : Text) : Solid (x ++ z) := by
  obtain ⟨c, t, rfl, hgap, hoff⟩ := h.opens
  refine ⟨c, t ++ z, rfl, hgap, ?_⟩
  rintro rfl
  exact hoff (by decide)

theorem Starts.lacks (h : Starts l x) (z : Text) {s : String}
    (hs : (s.toList.head?.any fun d => offSigns.contains d) = true) :
    scanSymbol s (x ++ z) = none := by
  obtain ⟨c, t, rfl, -, hoff⟩ := h.opens
  obtain ⟨d, hd, hmem⟩ := (Option.any_eq_true _ _).1 hs
  refine scanSymbol_of_ne ?_ (t ++ z) hd
  rintro rfl
  exact hoff (List.contains_iff_mem.1 hmem)

theorem Starts.lacks_word (h : Starts l x) (hz : Stops z) :
    ∀ w ∈ leadWords, scanWord w (x ++ z) = none := by
  intro w hw
  cases h with
  | sign hc _ =>
    have hall : (leadWords.all fun w => w.toList.head?.any fun d =>
        !startSigns.contains d && !Text.isAsciiDigit d) = true := by decide
    exact hc.lacks_word _ (List.all_eq_true.1 hall w hw)
  | @name y r hy hlead hr =>
    have hall : (leadWords.all fun w => w.toList.all isNameChar) = true := by decide
    rw [List.append_assoc]
    refine scanWord_of_ne hy (hr.stops hz) (List.all_eq_true.1 hall w hw) fun he => hlead ?_
    exact he ▸ List.mem_map_of_mem hw

/-- Going on with a type does not change its start. -/
theorem Starts.append (h : Starts l x) {g : Text} {c : Char} {t : Text} (hg : Trivia g)
    (hs : Solid (.scalar c :: t)) (hstop : Stops (g ++ .scalar c :: t))
    (hc : c ∈ ['.', '<', '[', '&', '|', 'e']) : Starts l (x ++ (g ++ .scalar c :: t)) := by
  cases h with
  | sign hc hparen =>
    refine .sign hc fun h => (hparen h).imp_right ?_
    rintro ⟨g', u, hg', hu, rfl⟩
    exact ⟨g', u ++ (g ++ .scalar c :: t), hg', hu.append _, List.append_assoc _ _ _⟩
  | @name y r hy hw hr =>
    rw [List.append_assoc]
    refine .name hy hw ?_
    cases hr with
    | nil => exact .next hg hs hstop (Or.inr hc)
    | @next g' c' t' hg' hs' hstop' hc' =>
      obtain ⟨_, _, ⟨⟩, hsolid⟩ := hs'
      have hstop := hstop'.append (g ++ .scalar c :: t)
      rw [List.append_assoc] at hstop ⊢
      exact .next hg' ⟨c', _, rfl, hsolid⟩ hstop hc'

theorem Starts.append_sign (h : Starts l x) {g : Text} {c : Char} (hg : Trivia g) (hs : IsSign c)
    (hc : c ∈ ['.', '<', '[', '&', '|', 'e']) (t : Text) : Starts l (x ++ (g ++ .scalar c :: t)) :=
  h.append hg (hs.solid t) (hg.stops fun _ => hs.stops t) hc

/-- A word before the type that it is applied to. -/
theorem Opens.starts {g : Text} (h : Opens x) (hg : Trivia g) (hne : g ≠ []) (w : String)
    (hw : operatorWords.contains w = true) : Starts l (Text.ofString w ++ (g ++ x)) := by
  have hall : ∀ w ∈ operatorWords, IsName (Text.ofString w) ∧
      Text.ofString w ∉ leadWords.map Text.ofString := by
    simp only [IsName]
    decide
  have hmem := List.contains_iff_mem.1 hw
  obtain ⟨c, t, rfl, hgap, hoff⟩ := h
  refine .name (hall w hmem).1 (hall w hmem).2 (.next hg ⟨c, t, rfl, hgap, ?_⟩ ?_
    (Or.inl ⟨hoff, List.mem_map_of_mem hmem⟩))
  · rintro rfl
    exact hoff (by decide)
  · exact hg.stops fun h => absurd h hne

end

theorem IsPath.starts {k : Kind} {x : Text} (h : IsPath k x) : Starts .primary x := by
  induction h with
  | @name y hy hw =>
    have hsub : (leadWords.all fun w => typeWords.contains w) = true := by decide
    have hlead : y ∉ leadWords.map Text.ofString := by
      intro hm
      obtain ⟨w, hmem, rfl⟩ := List.mem_map.1 hm
      exact hw (List.mem_map_of_mem (List.contains_iff_mem.1 (List.all_eq_true.1 hsub w hmem)))
    have hstart := Starts.name (l := .primary) hy hlead .nil
    rwa [List.append_nil] at hstart
  | member _ hg _ _ ih => exact ih.append_sign hg (by decide) (by decide) _

theorem isName_word {w : String} (h : w ∈ plainWords ++ valueWords) : IsName (Text.ofString w) := by
  have hall : ((plainWords ++ valueWords).all fun w =>
      scanName (Text.ofString w) == some (Text.ofString w).length) = true := by decide
  exact beq_iff_eq.1 (List.all_eq_true.1 hall w h)

/-- A word that is a type starts one. -/
theorem starts_word {w : String} (hw : w ∈ plainWords ++ valueWords) :
    Starts .primary (Text.ofString w) := by
  have hall : ((plainWords ++ valueWords).all fun w => !leadWords.contains w) = true := by decide
  have hlead : Text.ofString w ∉ leadWords.map Text.ofString := by
    rw [List.mem_map_of_injective Text.ofString_injective]
    simpa using List.all_eq_true.1 hall w hw
  have hstart := Starts.name (l := .primary) (isName_word hw) hlead .nil
  rwa [List.append_nil] at hstart

/-- **A type starts in one of few ways, whatever follows it.** -/
theorem Spelt.starts {e : Ending} {l : Level} {k : Kind} {x : Text} (h : Spelt e l k x) :
    Starts l x := by
  induction h with
  | path hx => exact hx.starts
  | keyword hw => exact starts_word (List.mem_append_left _ hw)
  | value hw => exact starts_word (List.mem_append_right _ hw)
  | string hq _ =>
    simp only [List.mem_cons, List.not_mem_nil, or_false] at hq
    rcases hq with rfl | rfl <;> exact .sign (Or.inl (by decide)) fun h => absurd h (by decide)
  | @number e ds hne hds =>
    obtain ⟨d, ds, rfl⟩ := List.exists_cons_of_ne_nil hne
    have hd := hds d (by simp)
    refine .sign (Or.inr hd) ?_
    rintro rfl
    cases hd
  | query hg hne hy _ _ =>
    rw [List.append_assoc]
    exact (hy.opens _).starts hg hne "typeof" (by decide)
  | group hg _ hgroup _ =>
    refine .sign (Or.inl (by decide)) fun _ =>
      Or.inr ⟨_, _, hg, hgroup.append _, List.append_assoc _ _ _⟩
  | tuple => exact .sign (Or.inl (by decide)) fun h => absurd h (by decide)
  | empty => exact .sign (Or.inl (by decide)) fun h => absurd h (by decide)
  | object => exact .sign (Or.inl (by decide)) fun h => absurd h (by decide)
  | generic hx hg => exact hx.starts.append_sign hg (by decide) (by decide) _
  | array _ hg _ _ ih => exact ih.append_sign hg (by decide) (by decide) _
  | lookup _ hg _ _ _ _ ih => exact ih.append_sign hg (by decide) (by decide) _
  | primary _ ih => exact ih.mono (by simp)
  | keyof hg hne _ ih => exact ih.opens.starts hg hne "keyof" (by decide)
  | operand _ ih => exact ih.mono (by simp)
  | both _ hg _ _ _ ih => exact ih.append_sign hg (by decide) (by decide) _
  | meet _ ih => exact ih.mono (by simp)
  | either _ hg _ _ _ ih => exact ih.append_sign hg (by decide) (by decide) _
  | union _ ih => exact ih.mono (by simp)
  | choice _ hg _ hne _ _ _ _ _ _ _ _ _ ih =>
    exact (ih.mono (by simp)).append hg ⟨'e', _, rfl, by decide, by decide⟩
      (hg.stops fun h => absurd h hne) (by decide)
  | function => exact .sign (Or.inl (by decide)) fun _ => Or.inl rfl

end Scaffold.Source
