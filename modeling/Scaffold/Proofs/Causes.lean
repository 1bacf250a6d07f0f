/-
  Chains of causes, and the reports that they give.

  * `Loop g seen next out`: following causes from `next`, with no bound on the number of steps, ends
    with `out`. The bound in `chain` is never what ends it (`loop_iff_chain`), as each step takes an
    error that was not seen before.
  * `Walk g i seen next`: what every step keeps. The errors seen start with `i`, each is the cause
    of the one before it, none comes twice, and `next` is the cause of the last one.
  * `Trail g i l`: the causes from `i` on end, and they are `l`. There is a trail exactly where no
    cycle is reached (`acyclic_iff_trail`), and then it is the chain (`trail_chain`).

  Main statements: `chain_walk`, for graphs with cycles of any kind, and `report_chain`, which says
  that a report is the texts of the chain.
-/
import Mathlib
import Scaffold.Failure.Graph

namespace Scaffold.ErrorGraph

open Relation (ReflTransGen TransGen)

variable {g : ErrorGraph} {i j k : Nat} {seen out l : List Nat} {next : Option Nat}

/-! ## Graphs -/

/-- `j` is the cause of `i`. -/
def Cause (g : ErrorGraph) (i j : Nat) : Prop :=
  g.causeOf i = some j

/-- Every cause is an error of the graph. -/
def Closed (g : ErrorGraph) : Prop :=
  ∀ i < g.length, ∀ j ∈ g.causeOf i, j < g.length

instance (g : ErrorGraph) : Decidable g.Closed :=
  inferInstanceAs (Decidable (∀ i < g.length, ∀ j ∈ g.causeOf i, j < g.length))

/-- Every cause is an earlier error, as where errors are only built and never linked. -/
def Ordered (g : ErrorGraph) : Prop :=
  ∀ i < g.length, ∀ j ∈ g.causeOf i, j < i

instance (g : ErrorGraph) : Decidable g.Ordered :=
  inferInstanceAs (Decidable (∀ i < g.length, ∀ j ∈ g.causeOf i, j < i))

/-- `j` is `i`, or its cause, or the cause of that, and so on. -/
def Reaches (g : ErrorGraph) : Nat → Nat → Prop :=
  ReflTransGen g.Cause

/-- No error that is reached from `i` comes back to itself. -/
def Acyclic (g : ErrorGraph) (i : Nat) : Prop :=
  ∀ j, g.Reaches i j → ¬ TransGen g.Cause j j

theorem causeOf_of_length_le (h : g.length ≤ i) : g.causeOf i = none := by
  simp [causeOf, List.getElem?_eq_none h]

theorem Cause.lt_length (h : g.Cause i j) : i < g.length := by
  by_contra hi
  rw [Cause, causeOf_of_length_le (Nat.le_of_not_lt hi)] at h
  cases h

theorem Closed.lt_of_reaches (hg : g.Closed) (hi : i < g.length) (h : g.Reaches i j) :
    j < g.length := by
  induction h with
  | refl => exact hi
  | tail _ hcause _ => exact hg _ hcause.lt_length _ hcause

theorem reaches_of_isChain (h : (i :: l).IsChain g.Cause) (hj : j ∈ i :: l) : g.Reaches i j :=
  h.induction (g.Reaches i) _ (fun _ _ hcause hreach => hreach.tail hcause) (fun _ => .refl) j hj

/-- Linking an error to another one of the graph keeps all causes inside. -/
theorem Closed.link (hg : g.Closed) (hj : j < g.length) : (g.link i j).Closed := by
  intro a ha b hb
  have hlength : (g.link i j).length = g.length := List.length_modify ..
  rw [hlength] at ha ⊢
  have hga : g[a]? = some g[a] := List.getElem?_eq_getElem ha
  unfold causeOf ErrorGraph.link at hb
  rw [List.getElem?_modify, hga] at hb
  by_cases hia : i = a
  · cases he : g[a] with
    | plain error => simp [he, hia] at hb
    | coded error cause =>
      simp only [he, hia, if_true, Option.map_eq_map, Option.map_some, Option.mem_some_iff] at hb
      exact hb ▸ hj
  · refine hg a ha b ?_
    simpa [causeOf, hga, hia] using hb

theorem Ordered.acyclic (hg : g.Ordered) (i : Nat) : g.Acyclic i := by
  intro j _ hcycle
  have hlt : ∀ {a b}, TransGen g.Cause a b → b < a := by
    intro a b hab
    induction hab with
    | single hab => exact hg _ hab.lt_length _ hab
    | tail _ hbc ih => exact (hg _ hbc.lt_length _ hbc).trans ih
  exact absurd (hlt hcycle) (lt_irrefl j)

/-! ## The bound on the steps -/

/-- Following causes from `next`, when the errors of `seen` came before, ends with `out`. -/
inductive Loop (g : ErrorGraph) : List Nat → Option Nat → List Nat → Prop
  | last (seen : List Nat) : Loop g seen none seen
  | again {seen : List Nat} {i : Nat} : i ∈ seen → Loop g seen (some i) seen
  | next {seen out : List Nat} {i : Nat} : i ∉ seen → Loop g (seen ++ [i]) (g.causeOf i) out →
      Loop g seen (some i) out

theorem loop_none : g.Loop seen none out ↔ seen = out := by
  constructor
  · intro h
    cases h
    rfl
  · rintro rfl
    exact .last _

theorem loop_of_mem (hi : i ∈ seen) : g.Loop seen (some i) out ↔ seen = out := by
  constructor
  · intro h
    cases h with
    | again => rfl
    | next hnew _ => exact absurd hi hnew
  · rintro rfl
    exact .again hi

theorem loop_of_notMem (hi : i ∉ seen) :
    g.Loop seen (some i) out ↔ g.Loop (seen ++ [i]) (g.causeOf i) out := by
  constructor
  · intro h
    cases h with
    | again hold => exact absurd hold hi
    | next _ h => exact h
  · exact .next hi

/-- The errors of a graph that have not been seen. -/
def unseen (g : ErrorGraph) (seen : List Nat) : Finset Nat :=
  (Finset.range g.length).filter (· ∉ seen)

theorem card_unseen_lt (hi : i < g.length) (hnew : i ∉ seen) :
    (g.unseen (seen ++ [i])).card < (g.unseen seen).card := by
  refine Finset.card_lt_card (Finset.ssubset_iff_of_subset ?_ |>.2 ⟨i, ?_, ?_⟩)
  · intro j hj
    simp only [unseen, Finset.mem_filter, List.mem_append, not_or] at hj ⊢
    exact ⟨hj.1, hj.2.1⟩
  · simp [unseen, hi, hnew]
  · simp [unseen]

/-- With more steps than errors left, the loop is followed to its end. -/
theorem loop_iff_follow {fuel : Nat} (h : next = none ∨ (g.unseen seen).card < fuel) :
    g.Loop seen next out ↔ g.follow fuel seen next = out := by
  induction fuel generalizing seen next with
  | zero =>
    obtain rfl : next = none := by simpa using h
    exact loop_none
  | succ fuel ih =>
    cases next with
    | none => exact loop_none
    | some i =>
      rw [follow]
      split
      · next hi => exact loop_of_mem (List.contains_iff_mem.1 hi)
      · next hi =>
        have hnew : i ∉ seen := fun hmem => hi (List.contains_iff_mem.2 hmem)
        rw [loop_of_notMem hnew]
        apply ih
        by_cases hlt : i < g.length
        · have hcard := card_unseen_lt hlt hnew
          exact Or.inr (by simp at h; omega)
        · exact Or.inl (causeOf_of_length_le (Nat.le_of_not_lt hlt))

/-- **Following causes ends, and with the chain.** -/
theorem loop_iff_chain : g.Loop [i] (g.causeOf i) out ↔ g.chain i = out := by
  refine loop_iff_follow (Or.inr ?_)
  have hcard : (g.unseen [i]).card ≤ (Finset.range g.length).card :=
    Finset.card_le_card (Finset.filter_subset _ _)
  rw [Finset.card_range] at hcard
  omega

/-! ## What every step keeps -/

/-- The errors `seen` are a walk from `i` along causes, and `next` is the cause of the last. -/
structure Walk (g : ErrorGraph) (i : Nat) (seen : List Nat) (next : Option Nat) : Prop where
  head : seen.head? = some i
  nodup : seen.Nodup
  causes : seen.IsChain g.Cause
  last : ∃ j, seen.getLast? = some j ∧ g.causeOf j = next

namespace Walk

theorem start (g : ErrorGraph) (i : Nat) : g.Walk i [i] (g.causeOf i) where
  head := rfl
  nodup := List.nodup_singleton i
  causes := List.isChain_singleton i
  last := ⟨i, rfl, rfl⟩

/-- A step to an error that was not seen. -/
theorem step (h : g.Walk i seen (some j)) (hj : j ∉ seen) :
    g.Walk i (seen ++ [j]) (g.causeOf j) where
  head := by rw [List.head?_append, h.head, Option.some_or]
  nodup := by
    refine List.nodup_append.2 ⟨h.nodup, List.nodup_singleton j, ?_⟩
    rintro a ha b hb rfl
    exact hj (List.mem_singleton.1 hb ▸ ha)
  causes := by
    obtain ⟨k, hk, hcause⟩ := h.last
    refine h.causes.append (List.isChain_singleton j) ?_
    intro a ha b hb
    rw [hk, Option.mem_some_iff] at ha
    rw [List.head?_cons, Option.mem_some_iff] at hb
    subst ha hb
    exact hcause
  last := ⟨j, List.getLast?_concat, rfl⟩

/-- A loop that starts with a walk ends with one, and it ends where causes end or come again. -/
theorem loop (h : g.Walk i seen next) (hl : g.Loop seen next out) :
    ∃ after, g.Walk i out after ∧ ∀ k ∈ after, k ∈ out := by
  induction hl with
  | last => exact ⟨none, h, by simp⟩
  | again hmem =>
    refine ⟨_, h, ?_⟩
    rintro k hk
    cases hk
    exact hmem
  | next hnew _ ih => exact ih (h.step hnew)

theorem eq_cons (h : g.Walk i seen next) : ∃ rest, seen = i :: rest := by
  cases hs : seen with
  | nil => simpa [hs] using h.head
  | cons a rest =>
    have hhead := h.head
    rw [hs, List.head?_cons, Option.some.injEq] at hhead
    exact ⟨rest, hhead ▸ rfl⟩

theorem reaches_of_mem (h : g.Walk i seen next) (hj : j ∈ seen) : g.Reaches i j := by
  obtain ⟨rest, rfl⟩ := h.eq_cons
  exact reaches_of_isChain h.causes hj

/-- The cause of an error of a walk is on the walk, or it is next. -/
theorem cause_mem (h : g.Walk i seen next) (hj : j ∈ seen) (hk : g.Cause j k) :
    k ∈ seen ∨ next = some k := by
  obtain ⟨pre, post, rfl⟩ := List.append_of_mem hj
  cases post with
  | nil =>
    obtain ⟨last, hlast, hnext⟩ := h.last
    rw [List.getLast?_concat, Option.some.injEq] at hlast
    subst hlast
    exact Or.inr (hnext.symm.trans hk)
  | cons b post =>
    have hb : g.Cause j b := (List.isChain_append_cons_cons.1 h.causes).2.1
    obtain rfl : b = k := Option.some.inj (hb.symm.trans hk)
    exact Or.inl (by simp)

end Walk

/-! ## Chains -/

theorem walk_chain (g : ErrorGraph) (i : Nat) :
    ∃ after, g.Walk i (g.chain i) after ∧ ∀ k ∈ after, k ∈ g.chain i :=
  (Walk.start g i).loop (loop_iff_chain.2 rfl)

/-- The chain of an error has all that it reaches: the walk is left at no error, and where it stops
    nothing new follows. -/
theorem mem_chain_iff : j ∈ g.chain i ↔ g.Reaches i j := by
  obtain ⟨after, hwalk, hafter⟩ := walk_chain g i
  constructor
  · exact hwalk.reaches_of_mem
  · intro h
    induction h with
    | refl =>
      obtain ⟨rest, hrest⟩ := hwalk.eq_cons
      rw [hrest]
      exact List.mem_cons_self
    | tail _ hcause ih =>
      rcases hwalk.cause_mem ih hcause with hmem | hnext
      · exact hmem
      · exact hafter _ hnext

/-- Where a chain may stop: at an error without a code, at one without a cause, or at one whose
    cause is in the chain. -/
inductive Stops (g : ErrorGraph) (chain : List Nat) (j : Nat) : Prop
  | plain {e : PlainError} : g[j]? = some (.plain e) → Stops g chain j
  | causeless {e : CodedError} : g[j]? = some (.coded e none) → Stops g chain j
  | repeated {e : CodedError} {k : Nat} : g[j]? = some (.coded e (some k)) → k ∈ chain →
      Stops g chain j

theorem stops_of_causeOf (hj : j < g.length) (h : ∀ k ∈ g.causeOf j, k ∈ l) : g.Stops l j := by
  have hsome : g[j]? = some g[j] := List.getElem?_eq_getElem hj
  cases he : g[j] with
  | plain e => exact .plain (hsome.trans (congrArg some he))
  | coded e cause =>
    rw [he] at hsome
    cases cause with
    | none => exact .causeless hsome
    | some k => exact .repeated hsome (h k (by simp [causeOf, hsome]))

/-- **The chain of an error is a finite walk without repetition, over all errors that are reached.**
    The causes may be linked in any way, also into cycles. -/
theorem chain_walk (hg : g.Closed) (hi : i < g.length) :
    (∀ out, g.Loop [i] (g.causeOf i) out ↔ out = g.chain i) ∧
      (g.chain i).head? = some i ∧ (g.chain i).Nodup ∧ (g.chain i).IsChain g.Cause ∧
      (∃ j, (g.chain i).getLast? = some j ∧ g.Stops (g.chain i) j) ∧
      (∀ j ∈ g.chain i, g.Reaches i j) ∧ ∀ j, g.Reaches i j → (g.chain i).count j = 1 := by
  obtain ⟨after, hwalk, hafter⟩ := walk_chain g i
  obtain ⟨j, hj, hcause⟩ := hwalk.last
  have hlast : g.Stops (g.chain i) j := by
    refine stops_of_causeOf ?_ (hcause ▸ hafter)
    exact hg.lt_of_reaches hi (mem_chain_iff.1 (List.mem_of_getLast? hj))
  refine ⟨fun out => loop_iff_chain.trans eq_comm, hwalk.head, hwalk.nodup, hwalk.causes,
    ⟨j, hj, hlast⟩, fun _ => mem_chain_iff.1, ?_⟩
  intro k hk
  exact List.count_eq_one_of_mem hwalk.nodup (mem_chain_iff.2 hk)

/-- Three errors, each the cause of the next, of which the first was then linked to the second. -/
def tangled : ErrorGraph :=
  ErrorGraph.link [.coded ⟨"AXE-P001", "read failed", none⟩ none,
    .coded ⟨"AXE-M003", "no type", none⟩ (some 0),
    .coded ⟨"AXE-G999", "run failed", none⟩ (some 1)] 0 1

theorem chain_walk_tangled :
    tangled.Closed ∧ 2 < tangled.length ∧ tangled.chain 2 = [2, 1, 0] ∧
      [2, 1, 0].IsChain tangled.Cause ∧ tangled.Stops [2, 1, 0] 0 ∧
      ∀ j, tangled.Reaches 2 j → [2, 1, 0].count j = 1 := by
  have hclosed : tangled.Closed := Closed.link (by decide) (by decide)
  have hchain : tangled.chain 2 = [2, 1, 0] := by decide
  obtain ⟨-, -, -, hcauses, ⟨j, hj, hstops⟩, -, hcount⟩ :=
    chain_walk hclosed (by decide : 2 < tangled.length)
  rw [hchain] at hcauses hj hstops hcount
  cases hj
  exact ⟨hclosed, by decide, hchain, hcauses, hstops, hcount⟩

/-! ## Trails -/

/-- The causes from an error on, when they end. -/
inductive Trail (g : ErrorGraph) : Nat → List Nat → Prop
  | last {i : Nat} : g.causeOf i = none → Trail g i [i]
  | cause {i j : Nat} {l : List Nat} : g.Cause i j → Trail g j l → Trail g i (i :: l)

theorem trail_of_isChain {rest : List Nat} (h : (i :: rest).IsChain g.Cause)
    (hlast : (i :: rest).getLast? = some j) (hj : g.causeOf j = none) : g.Trail i (i :: rest) := by
  induction rest generalizing i with
  | nil =>
    obtain rfl : i = j := by simpa using hlast
    exact .last hj
  | cons a rest ih =>
    rw [List.isChain_cons_cons] at h
    rw [List.getLast?_cons_cons] at hlast
    exact .cause h.1 (ih h.2 hlast)

/-- A chain that comes to no cycle is a trail: if its last error had a cause in the chain, that
    cause would reach itself. -/
theorem trail_chain (h : g.Acyclic i) : g.Trail i (g.chain i) := by
  obtain ⟨after, hwalk, hafter⟩ := walk_chain g i
  obtain ⟨j, hj, hcause⟩ := hwalk.last
  cases after with
  | none =>
    obtain ⟨rest, hrest⟩ := hwalk.eq_cons
    have hcauses := hwalk.causes
    rw [hrest] at hj hcauses ⊢
    exact trail_of_isChain hcauses hj hcause
  | some k =>
    have hk : k ∈ g.chain i := hafter k rfl
    obtain ⟨pre, post, hsplit⟩ := List.append_of_mem hk
    have hpart : (k :: post).IsChain g.Cause := (hsplit ▸ hwalk.causes).right_of_append
    have hmem : j ∈ k :: post := by
      rw [hsplit, List.getLast?_append_cons] at hj
      exact List.mem_of_getLast? hj
    have hreach : g.Reaches k j := reaches_of_isChain hpart hmem
    exact absurd (TransGen.tail' hreach hcause) (h k (mem_chain_iff.1 hk))

namespace Trail

theorem unique {l' : List Nat} (h : g.Trail i l) (h' : g.Trail i l') : l = l' := by
  induction h generalizing l' with
  | last hi =>
    cases h' with
    | last => rfl
    | cause hc _ => exact absurd (hi.symm.trans hc) (by simp)
  | cause hc _ ih =>
    cases h' with
    | last hi => exact absurd (hi.symm.trans hc) (by simp)
    | cause hc' h' =>
      cases Option.some.inj (hc.symm.trans hc')
      rw [ih h']

/-- The cause of an error has a shorter trail. -/
theorem of_cause (h : g.Trail i l) (hc : g.Cause i j) :
    ∃ l', g.Trail j l' ∧ l'.length < l.length := by
  cases h with
  | last hi => exact absurd (hi.symm.trans hc) (by simp)
  | @cause _ j' l hc' h =>
    cases Option.some.inj (hc.symm.trans hc')
    exact ⟨l, h, by simp⟩

theorem of_reaches (h : g.Trail i l) (hr : g.Reaches i j) : ∃ l', g.Trail j l' := by
  induction hr with
  | refl => exact ⟨l, h⟩
  | tail _ hc ih =>
    obtain ⟨m, hm⟩ := ih
    exact (hm.of_cause hc).imp fun _ h => h.1

theorem of_transGen (h : g.Trail i l) (ht : TransGen g.Cause i j) :
    ∃ l', g.Trail j l' ∧ l'.length < l.length := by
  induction ht with
  | single hc => exact h.of_cause hc
  | tail _ hc ih =>
    obtain ⟨m, hm, hlt⟩ := ih
    obtain ⟨m', hm', hlt'⟩ := hm.of_cause hc
    exact ⟨m', hm', hlt'.trans hlt⟩

/-- An error on a cycle would have a trail shorter than its own. -/
theorem acyclic (h : g.Trail i l) : g.Acyclic i := by
  intro j hr hcycle
  obtain ⟨m, hm⟩ := h.of_reaches hr
  obtain ⟨m', hm', hlt⟩ := hm.of_transGen hcycle
  rw [hm.unique hm'] at hlt
  exact absurd hlt (lt_irrefl _)

end Trail

theorem acyclic_iff_trail : g.Acyclic i ↔ ∃ l, g.Trail i l :=
  ⟨fun h => ⟨_, trail_chain h⟩, by rintro ⟨l, h⟩; exact h.acyclic⟩

/-! ## Reports -/

/-- The text of an error in a report: its own words, or code, message and perhaps details, one on a
    line. -/
inductive Shows : GraphError → String → Prop
  | plain (e : PlainError) : Shows (.plain e) ("ERROR: " ++ e.text)
  | bare {e : CodedError} {cause : Option Nat} : e.details.getD [] = [] →
      Shows (.coded e cause) ("ERROR " ++ e.code ++ ": " ++ e.message)
  | detailed {e : CodedError} {cause : Option Nat} {details : List (String × Json)} :
      e.details = some details → details ≠ [] →
      Shows (.coded e cause) ("ERROR " ++ e.code ++ ": " ++ e.message ++ "\n\nDetails:" ++
        String.join (details.map fun d => "\n  " ++ d.1 ++ ": " ++ d.2.inline))

/-- The error at an index has this text. -/
def ShowsAt (g : ErrorGraph) (i : Nat) (text : String) : Prop :=
  ∃ e, g[i]? = some e ∧ Shows e text

theorem shows_headline (e : GraphError) : Shows e (headline e) := by
  cases e with
  | plain e => exact .plain e
  | coded e cause =>
    rw [headline, Failure.headline, CodedError.line]
    cases hd : e.details with
    | none => simpa [String.append_assoc] using @Shows.bare e cause (by simp [hd])
    | some details =>
      cases details with
      | nil => simpa [String.append_assoc] using @Shows.bare e cause (by simp [hd])
      | cons d ds =>
        simpa [Failure.detailLines, String.append_assoc] using
          @Shows.detailed e cause (d :: ds) hd (by simp)

theorem Trail.reportWithin {fuel : Nat} (h : g.Trail i l) (hin : ∀ j ∈ l, j < g.length)
    (hfuel : l.length ≤ fuel) :
    ∃ texts, List.Forall₂ g.ShowsAt l texts ∧
      g.reportWithin fuel i = some ("\n\nCaused by: ".intercalate texts) := by
  induction h generalizing fuel with
  | @last i hi =>
    obtain ⟨fuel, rfl⟩ := Nat.exists_eq_add_of_le' hfuel
    have he := List.getElem?_eq_getElem (hin i (by simp))
    refine ⟨[headline _], .cons ⟨_, he, shows_headline _⟩ .nil, ?_⟩
    simp [ErrorGraph.reportWithin, he, hi]
  | @cause i j l hc htrail ih =>
    obtain ⟨fuel, rfl⟩ := Nat.exists_eq_add_of_le' (Nat.le_trans (Nat.le_add_left 1 _) hfuel)
    obtain ⟨texts, htexts, hreport⟩ := ih (fun k hk => hin k (List.mem_cons_of_mem i hk))
      (by simpa using hfuel)
    have he := List.getElem?_eq_getElem (hin i (by simp))
    refine ⟨headline _ :: texts, .cons ⟨_, he, shows_headline _⟩ htexts, ?_⟩
    have hne : texts ≠ [] := by
      rintro rfl
      cases htexts
      cases htrail
    have hcause : g.causeOf i = some j := hc
    simp only [ErrorGraph.reportWithin, he, hcause, hreport, Option.map_some, Failure.causeMark,
      String.intercalate_cons_of_ne_nil hne]

theorem trail_of_reportWithin {fuel : Nat} {r : String} (h : g.reportWithin fuel i = some r) :
    ∃ l, g.Trail i l := by
  induction fuel generalizing i r with
  | zero => simp [ErrorGraph.reportWithin] at h
  | succ fuel ih =>
    cases he : g[i]? with
    | none => simp [ErrorGraph.reportWithin, he] at h
    | some e =>
      cases hc : g.causeOf i with
      | none => exact ⟨[i], .last hc⟩
      | some j =>
        simp only [ErrorGraph.reportWithin, he, hc, Option.map_eq_some_iff] at h
        obtain ⟨r', hr', -⟩ := h
        obtain ⟨l, hl⟩ := ih hr'
        exact ⟨i :: l, .cause hc hl⟩

/-- **A report is the texts of the chain, each after the mark of a cause.** Where the causes come to
    a cycle there is no report. -/
theorem report_chain (hg : g.Closed) (hi : i < g.length) :
    (g.Acyclic i → ∃ texts, List.Forall₂ g.ShowsAt (g.chain i) texts ∧
      g.report i = some ("\n\nCaused by: ".intercalate texts)) ∧
    (¬ g.Acyclic i → g.report i = none) := by
  constructor
  · intro hacyclic
    have hin : ∀ j ∈ g.chain i, j < g.length := fun j hj =>
      hg.lt_of_reaches hi (mem_chain_iff.1 hj)
    obtain ⟨after, hwalk, -⟩ := walk_chain g i
    have hlength : (g.chain i).length ≤ g.length := by
      have hsub : g.chain i ⊆ List.range g.length := fun j hj => List.mem_range.2 (hin j hj)
      simpa using (hwalk.nodup.subperm hsub).length_le
    exact (trail_chain hacyclic).reportWithin hin (by omega)
  · intro hcyclic
    cases hr : g.report i with
    | none => rfl
    | some r => exact absurd (acyclic_iff_trail.2 (trail_of_reportWithin hr)) hcyclic

/-- A broken file, the failure to read it, and the failure of the run. -/
def failedRun : ErrorGraph :=
  [.plain ⟨.value, "bad byte"⟩,
    .coded ⟨"AXE-P001", "Failed", some [("path", .str "schema.ts")]⟩ (some 0),
    .coded ⟨"AXE-G999", "Run failed", none⟩ (some 1)]

theorem report_chain_failedRun :
    failedRun.Closed ∧ failedRun.Acyclic 2 ∧ failedRun.chain 2 = [2, 1, 0] ∧
      (∃ texts, List.Forall₂ failedRun.ShowsAt [2, 1, 0] texts ∧
        failedRun.report 2 = some ("\n\nCaused by: ".intercalate texts)) ∧
      failedRun.report 2 = some ("ERROR AXE-G999: Run failed\n\nCaused by: " ++
        "ERROR AXE-P001: Failed\n\nDetails:\n  path: schema.ts\n\nCaused by: ERROR: bad byte") := by
  have hclosed : failedRun.Closed := by decide
  have hacyclic : failedRun.Acyclic 2 := Ordered.acyclic (by decide) 2
  have hchain : failedRun.chain 2 = [2, 1, 0] := by decide
  refine ⟨hclosed, hacyclic, hchain, ?_, by decide +kernel⟩
  exact hchain ▸ (report_chain hclosed (by decide)).1 hacyclic

end Scaffold.ErrorGraph
