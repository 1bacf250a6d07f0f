/-
  The trees of sources.

  * `Within u t`: the node `u` is part of the tree `t`. Broken source is marked by a node within the
    tree, and `firstError` finds one if there is any (`firstError_eq_none`).
  * `Sound`: a node covers text without surrogates, and a node for an escape covers what the lexical
    level takes for one. Every node of the tree of a source without surrogates is sound
    (`parse_sound`).

  What a pattern reads is looked at once, for all patterns (`run_sound`), and the grammar is made of
  patterns of the right form (`grammar_tidy`): only the pattern for escapes reads escapes, and no
  node grows around one.
-/
import Mathlib
import Scaffold.Proofs.Specification
import Scaffold.Source.Grammar

namespace Scaffold

namespace Text

theorem NoSurrogate.of_subset {t u : Text} (h : t.NoSurrogate) (hs : u ⊆ t) : u.NoSurrogate :=
  fun n hn => h n (hs hn)

end Text

namespace Source

namespace SyntaxTree

/-! ## The nodes of a tree -/

/-- A node is part of a tree: it is the tree, or part of a child. -/
inductive Within : SyntaxTree → SyntaxTree → Prop
  | self (t : SyntaxTree) : Within t t
  | inChild {u c t : SyntaxTree} : c ∈ t.children → Within u c → Within u t

/-- Every node of a tree has a property. -/
def Every (P : SyntaxTree → Prop) (t : SyntaxTree) : Prop := ∀ u, Within u t → P u

variable {P : SyntaxTree → Prop} {t u : SyntaxTree}

theorem within_iff : Within u t ↔ u = t ∨ ∃ c ∈ t.children, Within u c := by
  constructor
  · intro h
    cases h with
    | self => exact Or.inl rfl
    | inChild hc hu => exact Or.inr ⟨_, hc, hu⟩
  · rintro (rfl | ⟨c, hc, hu⟩)
    · exact .self _
    · exact .inChild hc hu

theorem every_iff : t.Every P ↔ P t ∧ ∀ c ∈ t.children, c.Every P := by
  constructor
  · intro h
    exact ⟨h t (.self t), fun c hc u hu => h u (.inChild hc hu)⟩
  · rintro ⟨ht, hc⟩ u hu
    rcases within_iff.1 hu with rfl | ⟨c, hm, hu⟩
    · exact ht
    · exact hc c hm u hu

theorem Every.self (h : t.Every P) : P t := h t (.self t)

theorem Every.child (h : t.Every P) {c : SyntaxTree} (hc : c ∈ t.children) : c.Every P :=
  (every_iff.1 h).2 c hc

theorem Every.mono {Q : SyntaxTree → Prop} (h : t.Every P) (hPQ : ∀ u, P u → Q u) : t.Every Q :=
  fun u hu => hPQ u (h u hu)

theorem size_lt_of_mem {c : SyntaxTree} (h : c ∈ t.children) : c.size < t.size := by
  rw [size_eq t]
  generalize t.children = cs at h
  induction cs with
  | nil => cases h
  | cons d cs ih =>
    rw [sizeList]
    rcases List.mem_cons.1 h with rfl | h
    · omega
    · have := ih h
      omega

/-- Induction over the nodes of a tree, children first. -/
theorem induct (h : ∀ t : SyntaxTree, (∀ c ∈ t.children, P c) → P t) (t : SyntaxTree) : P t := by
  induction hn : t.size using Nat.strong_induction_on generalizing t with
  | _ n ih =>
    subst hn
    exact h t fun c hc => ih c.size (size_lt_of_mem hc) c rfl

/-! ## Broken source -/

/-- A tree of broken source: some node marks it. -/
def Broken (t : SyntaxTree) : Prop := ∃ u, Within u t ∧ u.isError = true

theorem broken_iff : t.Broken ↔ t.isError = true ∨ ∃ c ∈ t.children, c.Broken := by
  constructor
  · rintro ⟨u, hu, he⟩
    rcases within_iff.1 hu with rfl | ⟨c, hc, hu⟩
    · exact Or.inl he
    · exact Or.inr ⟨c, hc, u, hu, he⟩
  · rintro (he | ⟨c, hc, u, hu, he⟩)
    · exact ⟨t, .self t, he⟩
    · exact ⟨u, .inChild hc hu, he⟩

theorem hasError_eq (t : SyntaxTree) : t.hasError = (t.isError || anyError t.children) := by
  cases t
  rw [hasError, children]

theorem anyError_iff {ts : List SyntaxTree} :
    anyError ts = true ↔ ∃ t ∈ ts, t.hasError = true := by
  induction ts with
  | nil => simp [anyError]
  | cons t ts ih => simp [anyError, ih]

theorem hasError_iff (t : SyntaxTree) : t.hasError = true ↔ t.Broken := by
  induction t using induct with
  | h t ih =>
    rw [hasError_eq, Bool.or_eq_true, anyError_iff, broken_iff]
    exact or_congr_right (exists_congr fun c => and_congr_right fun hc => ih c hc)

theorem not_broken_of_hasError (h : t.hasError = false) : ¬ t.Broken := by
  rw [← hasError_iff, h]
  exact Bool.false_ne_true

/-- The search finds something whenever there is something to be found. -/
theorem searchError_eq_none {stack : List SyntaxTree} :
    searchError stack = none ↔ ∀ t ∈ stack, ¬ t.Broken := by
  induction stack using searchError.induct with
  | case1 => simp [searchError]
  | case2 t rest he =>
    rw [searchError, if_pos he]
    exact iff_of_false (by simp) fun h => h t (by simp) ⟨t, .self t, he⟩
  | case3 t rest he ih =>
    rw [searchError, if_neg he, ih]
    simp only [List.mem_append, List.mem_cons, or_imp, forall_and, forall_eq, broken_iff (t := t),
      he, false_or, not_exists, not_and, Bool.false_eq_true]

theorem firstError_eq_none (t : SyntaxTree) : t.firstError = none ↔ ¬ t.Broken := by
  unfold firstError
  split
  · rw [searchError_eq_none]
    simp
  · next h =>
    rw [hasError_iff] at h
    simp [h]

end SyntaxTree

/-! ## Sound nodes -/

/-- A tree whose nodes all cover text without surrogates. -/
def SyntaxTree.IsText (t : SyntaxTree) : Prop := t.Every fun u => u.text.NoSurrogate

/-- A text that the lexical level takes for an escape. -/
def IsEscape (t : Text) : Prop := ∃ rest n, scanEscape rest = some n ∧ t = rest.take n

/-- A node as sources have them: its text has no surrogate, and the text of an escape is one. -/
def Sound (t : SyntaxTree) : Prop :=
  t.text.NoSurrogate ∧ (t.kind = .escape → IsEscape t.text)

theorem isText_of_sound {t : SyntaxTree} (h : t.Every Sound) : t.IsText :=
  h.mono fun _ hu => hu.1

theorem every_leaf {P : SyntaxTree → Prop} {k : Kind} {s : Nat} {x : Text} :
    (SyntaxTree.leaf k s x).Every P ↔ P (.leaf k s x) := by
  rw [SyntaxTree.every_iff]
  simp [SyntaxTree.leaf, SyntaxTree.children]

/-- Nodes that are no escapes are sound if their text is. -/
theorem sound_of_ne {k : Kind} {r : Option Role} {s : Nat} {x : Text} {cs : List SyntaxTree}
    (hk : k ≠ .escape) (hx : x.NoSurrogate) : Sound (.node k r s x cs) :=
  ⟨hx, fun h => absurd h hk⟩

theorem every_node {k : Kind} {r : Option Role} {s : Nat} {x : Text} {cs : List SyntaxTree}
    (hk : k ≠ .escape) (hx : x.NoSurrogate) (hcs : ∀ d ∈ cs, d.Every Sound) :
    (SyntaxTree.node k r s x cs).Every Sound :=
  SyntaxTree.every_iff.2 ⟨sound_of_ne hk hx, hcs⟩

theorem every_withRole {t : SyntaxTree} {r : Role} (h : t.Every Sound) :
    (t.withRole r).Every Sound := by
  cases t with
  | node k r' s x cs =>
    rw [SyntaxTree.every_iff] at h ⊢
    exact h

theorem kind_withRole (t : SyntaxTree) (r : Role) : (t.withRole r).kind = t.kind := by
  cases t
  rfl

namespace Cursor

variable {c : Cursor}

theorem noSurrogate_advance (h : c.rest.NoSurrogate) (n : Nat) :
    (c.advance n).rest.NoSurrogate :=
  h.of_subset (List.drop_subset n c.rest)

theorem noSurrogate_textTo (h : c.rest.NoSurrogate) (stop : Cursor) :
    (c.textTo stop).NoSurrogate :=
  h.of_subset (List.take_subset _ c.rest)

theorem every_comment (h : c.rest.NoSurrogate) (n : Nat) :
    (SyntaxTree.leaf .comment c.offset (c.rest.take n)).Every Sound :=
  every_leaf.2 (sound_of_ne (by simp) (h.of_subset (List.take_subset n c.rest)))

theorem skipTrivia_sound (h : c.rest.NoSurrogate) (fuel : Nat) :
    (c.skipTrivia fuel).2.rest.NoSurrogate ∧
      ∀ t ∈ (c.skipTrivia fuel).1, t.Every Sound ∧ t.kind = .comment := by
  have hgap : c.skipGap.rest.NoSurrogate := noSurrogate_advance h _
  induction fuel generalizing c with
  | zero => exact ⟨hgap, by simp [skipTrivia]⟩
  | succ fuel ih =>
    unfold skipTrivia
    cases hs : scanComment c.skipGap.rest with
    | none => simpa [hs] using hgap
    | some n =>
      have hnext := noSurrogate_advance hgap n
      obtain ⟨hstop, hmore⟩ := ih hnext (noSurrogate_advance hnext _)
      simp only [hs]
      refine ⟨hstop, fun t ht => ?_⟩
      rcases List.mem_cons.1 ht with rfl | ht
      · exact ⟨every_comment hgap n, rfl⟩
      · exact hmore t ht

theorem skipLineEnd_sound {ending : Ending} {fuel : Nat} {trees : List SyntaxTree} {stop : Cursor}
    (h : c.rest.NoSurrogate) (hr : c.skipLineEnd ending fuel = some (trees, stop)) :
    stop.rest.NoSurrogate ∧ ∀ t ∈ trees, t.Every Sound ∧ t.kind = .comment := by
  induction fuel generalizing c trees stop with
  | zero =>
    unfold skipLineEnd at hr
    split at hr
    · cases hr; exact ⟨h, by simp⟩
    · cases hr
  | succ fuel ih =>
    have hgap : c.skipGap.rest.NoSurrogate := noSurrogate_advance h _
    unfold skipLineEnd at hr
    split at hr
    · cases hr; exact ⟨h, by simp⟩
    · simp only [] at hr
      split at hr
      · cases hr
      · next n hn =>
        obtain ⟨⟨more, stop'⟩, hmore, he⟩ := Option.map_eq_some_iff.1 hr
        cases he
        obtain ⟨hstop, htrees⟩ := ih (noSurrogate_advance hgap n) hmore
        refine ⟨hstop, fun t ht => ?_⟩
        rcases List.mem_cons.1 ht with rfl | ht
        · exact ⟨every_comment hgap n, rfl⟩
        · exact htrees t ht

end Cursor

/-! ## What patterns read -/

/-- A reader of sound nodes, which reads escapes only inside other nodes if it is `flat`. -/
def Reads (flat : Prop) (read : Reader) : Prop :=
  ∀ c trees stop, c.rest.NoSurrogate → read c = some (trees, stop) →
    stop.rest.NoSurrogate ∧ ∀ t ∈ trees, t.Every Sound ∧ (flat → t.kind ≠ .escape)

theorem Reads.mono {flat other : Prop} {read : Reader} (h : Reads flat read)
    (himp : other → flat) : Reads other read := by
  intro c trees stop hc hr
  obtain ⟨hstop, htrees⟩ := h c trees stop hc hr
  exact ⟨hstop, fun t ht => (htrees t ht).imp_right fun hk hf => hk (himp hf)⟩

namespace Pattern

variable {R : Type}

/-- A pattern that reads escapes only inside other nodes. -/
@[simp] def Flat : Pattern R → Prop
  | lexeme k _ | glued k _ | node k _ => k ≠ .escape
  | seq p q | alt p q => p.Flat ∧ q.Flat
  | many p | labelled _ p => p.Flat
  | grow _ _ _ base step => base.Flat ∧ step.Flat
  | nothing | rule _ | ahead _ | absent _ | lineEnd _ => True

/-- A pattern that reads as an escape only what is one: no other lexeme, and no node, not even one
    that grows, has that kind. -/
@[simp] def Tidy : Pattern R → Prop
  | glued k scan => k = .escape → scan = scanEscape
  | lexeme k _ => k ≠ .escape
  | node k p => k ≠ .escape ∧ p.Tidy
  | seq p q | alt p q => p.Tidy ∧ q.Tidy
  | many p | labelled _ p => p.Tidy
  | grow _ _ _ base step => base.Tidy ∧ step.Tidy ∧ step.Flat
  | nothing | rule _ | ahead _ | absent _ | lineEnd _ => True

theorem splitLast_eq_some {trees before : List SyntaxTree} {last : SyntaxTree}
    (h : splitLast trees = some (before, last)) : trees = before ++ [last] := by
  induction trees generalizing before with
  | nil => cases h
  | cons t trees ih =>
    cases trees with
    | nil => cases h; rfl
    | cons u trees =>
      obtain ⟨⟨b, l⟩, hb, he⟩ := Option.map_eq_some_iff.1 h
      cases he
      rw [ih hb]
      rfl

variable {flat : Prop} {read : Reader}

theorem repeatRead_sound (hread : Reads flat read) (fuel : Nat) {c : Cursor}
    (hc : c.rest.NoSurrogate) :
    (repeatRead read fuel c).2.rest.NoSurrogate ∧
      ∀ t ∈ (repeatRead read fuel c).1, t.Every Sound ∧ (flat → t.kind ≠ .escape) := by
  induction fuel generalizing c with
  | zero => exact ⟨hc, by simp [repeatRead]⟩
  | succ fuel ih =>
    unfold repeatRead
    split
    · exact ⟨hc, by simp⟩
    · next trees next hr =>
      obtain ⟨hnext, htrees⟩ := hread c trees next hc hr
      split
      · exact ⟨hc, by simp⟩
      · obtain ⟨hstop, hmore⟩ := ih hnext
        refine ⟨hstop, fun t ht => ?_⟩
        rcases List.mem_append.1 ht with ht | ht
        · exact htrees t ht
        · exact hmore t ht

/-- A node that grows has the kind of the node it grows into, which is no escape. -/
theorem growOnce_sound {allowed : Kind → Bool} {role : Option Role} {start c stop : Cursor}
    {t grown : SyntaxTree} (hread : Reads True read) (hs : start.rest.NoSurrogate)
    (hc : c.rest.NoSurrogate) (ht : t.Every Sound)
    (h : growOnce allowed role read start t c = some (grown, stop)) :
    stop.rest.NoSurrogate ∧ grown.Every Sound ∧ grown.kind ≠ .escape := by
  unfold growOnce at h
  split at h
  · cases h
  split at h
  · cases h
  · next trees stop' hr =>
    obtain ⟨hstop, htrees⟩ := hread c trees stop' hc hr
    split at h
    · cases h
    · next comments outer hl =>
      cases h
      have hsplit := splitLast_eq_some hl
      obtain ⟨houter, hkind⟩ := htrees outer (by simp [hsplit])
      have hkind := hkind trivial
      refine ⟨hstop, every_node hkind (Cursor.noSurrogate_textTo hs _) fun d hd => ?_, hkind⟩
      simp only [List.cons_append, List.mem_cons, List.mem_append] at hd
      rcases hd with rfl | hd | hd
      · cases role with
        | none => exact ht
        | some r => exact every_withRole ht
      · exact (htrees d (by simp [hsplit, hd])).1
      · exact houter.child hd

theorem growMany_sound (allowed : Kind → Bool) (role : Option Role) {start : Cursor}
    (hread : Reads True read) (hs : start.rest.NoSurrogate) (fuel : Nat) {t : SyntaxTree}
    {c : Cursor} (hc : c.rest.NoSurrogate) (ht : t.Every Sound) :
    (growMany allowed role read start fuel t c).2.rest.NoSurrogate ∧
      (growMany allowed role read start fuel t c).1.Every Sound ∧
      (t.kind ≠ .escape → (growMany allowed role read start fuel t c).1.kind ≠ .escape) := by
  induction fuel generalizing t c with
  | zero => exact ⟨hc, ht, id⟩
  | succ fuel ih =>
    unfold growMany
    split
    · exact ⟨hc, ht, id⟩
    · next grown stop hg =>
      obtain ⟨hstop, hgrown, hkind⟩ := growOnce_sound hread hs hc ht hg
      obtain ⟨h₁, h₂, h₃⟩ := ih hstop hgrown
      exact ⟨h₁, h₂, fun _ => h₃ hkind⟩

theorem sound_of_comment {t : SyntaxTree} (h : t.Every Sound ∧ t.kind = .comment) :
    t.Every Sound ∧ (flat → t.kind ≠ .escape) :=
  ⟨h.1, fun _ => by rw [h.2]; simp⟩

section

-- one lemma for each pattern that puts nodes together, by the equation of `run` for it
attribute [local simp] run

variable {bound : Nat} {call : R → Reader} {p q : Pattern R} {k : Kind} {scan : Text → Option Nat}

theorem reads_lexeme (hk : k ≠ .escape) : Reads True (run bound call (lexeme k scan)) := by
  intro c trees stop hc h
  obtain ⟨hstart, hcomments⟩ := Cursor.skipTrivia_sound hc bound
  simp only [run] at h
  split at h
  · cases h
  · next n hn =>
    cases h
    refine ⟨Cursor.noSurrogate_advance hstart n, fun t ht => ?_⟩
    rcases List.mem_append.1 ht with ht | ht
    · exact sound_of_comment (hcomments t ht)
    · rw [List.mem_singleton.1 ht]
      exact ⟨every_leaf.2 (sound_of_ne hk (hstart.of_subset (List.take_subset _ _))), fun _ => hk⟩

theorem reads_glued (hk : k = .escape → scan = scanEscape) :
    Reads (k ≠ .escape) (run bound call (glued k scan)) := by
  intro c trees stop hc h
  simp only [run] at h
  split at h
  · cases h
  · next n hn =>
    cases h
    refine ⟨Cursor.noSurrogate_advance hc n, fun t ht => ?_⟩
    rw [List.mem_singleton.1 ht]
    refine ⟨every_leaf.2 ⟨hc.of_subset (List.take_subset _ _), fun he => ?_⟩, id⟩
    obtain rfl := hk he
    exact ⟨c.rest, n, hn, rfl⟩

theorem reads_seq (hp : Reads flat (run bound call p)) (hq : Reads flat (run bound call q)) :
    Reads flat (run bound call (seq p q)) := by
  intro c trees stop hc h
  simp only [run] at h
  split at h
  · cases h
  · next left next hl =>
    obtain ⟨hnext, hleft⟩ := hp c left next hc hl
    split at h
    · cases h
    · next right stop' hr =>
      cases h
      obtain ⟨hstop, hright⟩ := hq next right stop hnext hr
      exact ⟨hstop, fun t ht => (List.mem_append.1 ht).elim (hleft t) (hright t)⟩

theorem reads_alt (hp : Reads flat (run bound call p)) (hq : Reads flat (run bound call q)) :
    Reads flat (run bound call (alt p q)) := by
  intro c trees stop hc h
  simp only [run] at h
  split at h
  · next hl =>
    cases h
    exact hp c trees stop hc hl
  · exact hq c trees stop hc h

theorem reads_many (hp : Reads flat (run bound call p)) :
    Reads flat (run bound call (many p)) := by
  intro c trees stop hc h
  obtain ⟨hstop, htrees⟩ := repeatRead_sound hp bound hc
  rw [Option.some.inj h] at hstop htrees
  exact ⟨hstop, htrees⟩

theorem reads_node (hk : k ≠ .escape) (hp : Reads flat (run bound call p)) :
    Reads True (run bound call (node k p)) := by
  intro c trees stop hc h
  obtain ⟨hstart, hcomments⟩ := Cursor.skipTrivia_sound hc bound
  simp only [run] at h
  split at h
  · cases h
  · next children stop' hr =>
    cases h
    obtain ⟨hstop, hchildren⟩ := hp _ children stop hstart hr
    refine ⟨hstop, fun t ht => ?_⟩
    rcases List.mem_append.1 ht with ht | ht
    · exact sound_of_comment (hcomments t ht)
    · rw [List.mem_singleton.1 ht]
      exact ⟨every_node hk (Cursor.noSurrogate_textTo hstart _) fun d hd => (hchildren d hd).1,
        fun _ => hk⟩

theorem reads_labelled {role : Role} (hp : Reads flat (run bound call p)) :
    Reads flat (run bound call (labelled role p)) := by
  intro c trees stop hc h
  obtain ⟨⟨trees', stop'⟩, hr, he⟩ := Option.map_eq_some_iff.1 h
  cases he
  obtain ⟨hstop, htrees⟩ := hp c trees' stop hc hr
  refine ⟨hstop, fun t ht => ?_⟩
  obtain ⟨u, hu, rfl⟩ := List.mem_map.1 ht
  obtain ⟨hsound, hkind⟩ := htrees u hu
  split
  · exact ⟨hsound, hkind⟩
  · exact ⟨every_withRole hsound, fun hf => kind_withRole u role ▸ hkind hf⟩

theorem reads_grow {again : Bool} {allowed : Kind → Bool} {role : Option Role}
    (hp : Reads flat (run bound call p)) (hq : Reads True (run bound call q)) :
    Reads flat (run bound call (grow again allowed role p q)) := by
  intro c trees stop hc h
  obtain ⟨hstart, hcomments⟩ := Cursor.skipTrivia_sound hc bound
  simp only [run] at h
  split at h
  · cases h
  · next trees' next hr =>
    obtain ⟨hnext, htrees'⟩ := hp _ trees' next hstart hr
    split at h
    · cases h
    · next before t hl =>
      cases h
      have hsplit := splitLast_eq_some hl
      obtain ⟨ht, hkind⟩ := htrees' t (by simp [hsplit])
      obtain ⟨hstop, hgrown, hgkind⟩ := growMany_sound allowed role hq hstart
        (if again then bound else 1) hnext ht
      refine ⟨hstop, fun u hu => ?_⟩
      simp only [List.mem_append, List.mem_singleton] at hu
      rcases hu with (hu | hu) | rfl
      · exact sound_of_comment (hcomments u hu)
      · exact htrees' u (by simp [hsplit, hu])
      · exact ⟨hgrown, fun hf => hgkind (hkind hf)⟩

end

/-- **Tidy patterns read sound nodes.** -/
theorem run_sound {bound : Nat} {call : R → Reader} (hcall : ∀ r, Reads True (call r))
    {p : Pattern R} (hp : p.Tidy) : Reads p.Flat (run bound call p) := by
  induction p with
  | nothing =>
    intro c trees stop hc h
    cases h
    exact ⟨hc, by simp⟩
  | lexeme k scan => exact (reads_lexeme hp).mono fun _ => trivial
  | glued k scan => exact reads_glued hp
  | rule r => exact hcall r
  | seq p q ihp ihq => exact reads_seq ((ihp hp.1).mono And.left) ((ihq hp.2).mono And.right)
  | alt p q ihp ihq => exact reads_alt ((ihp hp.1).mono And.left) ((ihq hp.2).mono And.right)
  | many p ih => exact reads_many (ih hp)
  | ahead p =>
    intro c trees stop hc h
    obtain ⟨_, -, he⟩ := Option.map_eq_some_iff.1 h
    cases he
    exact ⟨hc, by simp⟩
  | absent p =>
    intro c trees stop hc h
    simp only [run] at h
    split at h
    · cases h
    · cases h
      exact ⟨hc, by simp⟩
  | lineEnd ending =>
    intro c trees stop hc h
    obtain ⟨hstop, htrees⟩ := Cursor.skipLineEnd_sound hc h
    exact ⟨hstop, fun t ht => sound_of_comment (htrees t ht)⟩
  | node k p ih => exact (reads_node hp.1 (ih hp.2)).mono fun _ => trivial
  | labelled role p ih => exact reads_labelled (ih hp)
  | grow again allowed role base step ihb ihs =>
    obtain ⟨hbase, hstep, hflat⟩ := hp
    exact reads_grow ((ihb hbase).mono And.left) ((ihs hstep).mono fun _ => hflat)

end Pattern

/-! ## What the grammar reads -/

namespace Grammar

open Pattern

/-- What holds of a sequence if it holds of its parts. -/
theorem forall_seqs {Q : P → Prop} (hnothing : Q .nothing)
    (hseq : ∀ p q, Q (.seq p q) ↔ Q p ∧ Q q) (ps : List P) : Q (seqs ps) ↔ ∀ p ∈ ps, Q p := by
  induction ps using seqs.induct with
  | case1 => simpa [seqs] using hnothing
  | case2 p => simp [seqs]
  | case3 p ps hps ih => simp [seqs, hseq, ih]

/-- What holds of a choice if it holds of its parts. -/
theorem forall_alts {Q : P → Prop} (hnever : Q never)
    (halt : ∀ p q, Q (.alt p q) ↔ Q p ∧ Q q) (ps : List P) : Q (alts ps) ↔ ∀ p ∈ ps, Q p := by
  induction ps using alts.induct with
  | case1 => simpa [alts] using hnever
  | case2 p => simp [alts]
  | case3 p ps hps ih => simp [alts, halt, ih]

@[simp] theorem tidy_seqs (ps : List P) :
    ((seqs ps).Tidy ↔ ∀ p ∈ ps, p.Tidy) ∧ ((seqs ps).Flat ↔ ∀ p ∈ ps, p.Flat) :=
  ⟨forall_seqs (by simp) (by simp) ps, forall_seqs (by simp) (by simp) ps⟩

@[simp] theorem tidy_alts (ps : List P) :
    ((alts ps).Tidy ↔ ∀ p ∈ ps, p.Tidy) ∧ ((alts ps).Flat ↔ ∀ p ∈ ps, p.Flat) :=
  ⟨forall_alts (by simp [never]) (by simp) ps, forall_alts (by simp [never]) (by simp) ps⟩

@[simp] theorem tidy_words (ws : List String) : (words ws).Tidy ∧ (words ws).Flat := by
  simp [words, word]

@[simp] theorem tidy_continues (e : Ending) : (continues e).Tidy ∧ (continues e).Flat := by
  cases e <;> simp [continues]

@[simp] theorem tidy_bar (e : Ending) : (bar e).Tidy ∧ (bar e).Flat := by
  cases e <;> simp [bar, inExpression, sym]

@[simp] theorem tidy_ampersand (e : Ending) : (ampersand e).Tidy ∧ (ampersand e).Flat := by
  cases e <;> simp [ampersand, inExpression, sym]

end Grammar

open Pattern Grammar in
/-- Only the patterns of strings read escapes, inside the node of the string. -/
theorem grammar_tidy (r : Rule) : (grammar r).Tidy ∧ (grammar r).Flat := by
  cases r <;> simp [
    grammar, opt, word, sym, gluedSym, anyName, anyTypeName, sepBy1, sparse,
    commaList, semicolon, stringOf, string, number, template, computedName, propertyName,
    propertyStart, modifier, accessModifier, conditionalStep, type, unionStep, intersectionStep,
    union, unionOperand, intersection, intersectionOperand, typePredicate, resultType,
    importedType, typeOperand, builtinType, literalType, namedType, typeQuery, tupleItem,
    tupleType, templateType, bracketStep, optionalOperand, primaryType, typeArguments,
    typeParameter, typeParameters, ascribed, initialValue, parameterModifier, parameter,
    parameters, bindingWithDefault, binding, signature, propertySignature, methodWords,
    methodSignature, constructSignature, indexSignature, typeMember, objectType,
    functionExpression, arrowBody, arrowFunction, heritage, classExpression, methodDefinition,
    classMember, classBody, decorator, spread, objectLiteral, objectTarget, arrayLiteral,
    arguments, parenthesized, memberName, newExpression, moduleExpression, primary,
    afterInstance, suffix, assignSign, suffixed, operand, binaryOperator, choiceMark,
    operatorStep, expression, expressions, declarator, variableDeclaration,
    interfaceDeclaration, typeAlias, enumDeclaration, moduleDeclaration, functionDeclaration,
    classDeclaration, importAlias, ambientDeclaration, declaration, fromClause, offeredName,
    nameList, importStatement, exportStatement, condition, block, loopHeader, cases,
    keywordStatement, labelledStatement, expressionStatement, statement]

theorem read_sound (bound depth : Nat) (r : Rule) : Reads True (grammar.read bound depth r) := by
  induction depth generalizing r with
  | zero =>
    intro c trees stop hc h
    cases h
  | succ depth ih =>
    obtain ⟨htidy, hflat⟩ := grammar_tidy r
    exact (Pattern.run_sound ih htidy).mono fun _ => hflat

theorem readStatements_sound {flat : Prop} {read : Reader} (hread : Reads flat read) (fuel : Nat)
    {c : Cursor} (hc : c.rest.NoSurrogate) : ∀ t ∈ readStatements read fuel c, t.Every Sound := by
  induction fuel generalizing c with
  | zero => simp [readStatements]
  | succ fuel ih =>
    obtain ⟨hstart, hcomments⟩ := Cursor.skipTrivia_sound hc fuel
    have herror : (SyntaxTree.leaf .error (c.skipTrivia fuel).2.offset
        (c.skipTrivia fuel).2.rest).Every Sound :=
      every_leaf.2 (sound_of_ne (by simp) hstart)
    intro t ht
    simp only [readStatements] at ht
    split at ht
    · exact (hcomments t ht).1
    · split at ht
      · next trees next hr =>
        obtain ⟨hnext, htrees⟩ := hread _ trees next hstart hr
        split at ht
        · rcases List.mem_append.1 ht with ht | ht
          · exact (hcomments t ht).1
          · exact List.mem_singleton.1 ht ▸ herror
        · simp only [List.mem_append] at ht
          rcases ht with (ht | ht) | ht
          · exact (hcomments t ht).1
          · exact (htrees t ht).1
          · exact ih hnext t ht
      · rcases List.mem_append.1 ht with ht | ht
        · exact (hcomments t ht).1
        · exact List.mem_singleton.1 ht ▸ herror

/-- **Every node of the tree of a source is sound.** -/
theorem parse_sound {source : Text} (h : source.NoSurrogate) : (parse source).Every Sound := by
  have hc : (Cursor.mk source 0).rest.NoSurrogate := h
  have hread := read_sound (source.length + 1) (depthFor source.length) .statement
  obtain ⟨hstart, hcomments⟩ := Cursor.skipTrivia_sound hc (source.length + 1)
  refine every_node (by simp) h fun t ht => ?_
  split at ht
  · next n hn =>
    rcases List.mem_append.1 ht with ht | ht
    · exact (hcomments t ht).1
    rcases List.mem_cons.1 ht with rfl | ht
    · exact every_leaf.2 (sound_of_ne (by simp) (hstart.of_subset (List.take_subset _ _)))
    · exact readStatements_sound hread _ (Cursor.noSurrogate_advance hstart n) t ht
  · exact readStatements_sound hread _ hc t ht

end Source

end Scaffold
