/-
  Contexts of specifications that went through JSON text: `buildFromJson_toText`.

  A specification may be given as a value, or as the JSON value that its text is read as. The
  latter is checked first, and the check gives back what was written (`Specification.exists_value`),
  so both ways end in the same context or in the same refusal.
-/
import Mathlib
import Scaffold.Context
import Scaffold.Proofs.Specification

namespace Scaffold.Context

/-- **A specification and its JSON text give the same context.** Every specification without
    surrogates has a text; every reader that allows for its five levels of nesting reads it as one
    value, and by any configuration that value has the context that the specification has, or is
    refused with the same failure. -/
theorem buildFromJson_toText {s : Specification} (h : s.version.NoSurrogate) (c : Config) :
    ∃ text v, s.toText? = some text ∧
      (∀ depth, 5 ≤ depth → Json.readDeep depth text.toList = some v) ∧
      buildFromJson v c = build s c := by
  obtain ⟨text, v, htext, hread, hs⟩ := Specification.exists_value h
  refine ⟨text, v, htext, fun depth hdepth => ?_, ?_⟩
  · obtain ⟨more, rfl⟩ := Nat.exists_eq_add_of_le hdepth
    rw [Nat.add_comm]
    exact hread more
  · rw [buildFromJson, hs .value]

/-- A configuration with one operation put into a category. -/
def sampleConfig : Config where
  schemaPath := ⟨.relative, ["s"]⟩
  outputDir := ⟨.relative, ["o"]⟩
  templateDir := ⟨.relative, ["t"]⟩
  framework := .fastapi
  project := ⟨"p", "1", "", "", ""⟩
  cachePath := none
  outputs := []
  groups := [("Get", "tool")]

/-- The sample with its operation twice. -/
def doubled : Specification :=
  { Specification.sample with
    operations := Specification.sample.operations ++ Specification.sample.operations }

/-- The sample has a context, and with its operation twice it is refused. -/
theorem buildFromJson_toText_sample :
    (Specification.sample.version.NoSurrogate ∧
      ∃ text v, Specification.sample.toText? = some text ∧
        (∀ depth, 5 ≤ depth → Json.readDeep depth text.toList = some v) ∧
        buildFromJson v sampleConfig = .ok (assemble sampleConfig Specification.sample)) ∧
    (doubled.version.NoSurrogate ∧
      ∃ text v, doubled.toText? = some text ∧
        (∀ depth, 5 ≤ depth → Json.readDeep depth text.toList = some v) ∧
        buildFromJson v sampleConfig = .error (Refusal.repeatedOperation "Get").failure) := by
  have hs : Specification.sample.version.NoSurrogate := Text.noSurrogate_ofString _
  have hsample : build Specification.sample sampleConfig =
      .ok (assemble sampleConfig Specification.sample) := by
    have hnone : refusal? Specification.sample = none := by decide +kernel
    rw [build, hnone]
  have hdoubled : build doubled sampleConfig =
      .error (Refusal.repeatedOperation "Get").failure := by
    have hsome : refusal? doubled = some (.repeatedOperation "Get") := by decide +kernel
    rw [build, hsome]
  exact ⟨⟨hs, hsample ▸ buildFromJson_toText hs sampleConfig⟩,
    ⟨hs, hdoubled ▸ buildFromJson_toText (s := doubled) hs sampleConfig⟩⟩

end Scaffold.Context
