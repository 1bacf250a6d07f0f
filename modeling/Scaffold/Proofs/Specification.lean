/-
  Specifications survive their JSON text: `Specification.ofText_toText`.

  Each record is checked back from the members it is written with, so a specification is checked
  back from its JSON value (`Specification.ofJson_toJson`); that value is plain, and its text is
  read as the value (`Json.readDeep_write`). What reading accepts has no surrogates, hence a text.
-/
import Mathlib
import Scaffold.Proofs.Json
import Scaffold.Proofs.Utf8
import Scaffold.Specification.Check

namespace Scaffold

theorem eq_ok_of_toOption {ε α : Type} {r : Except ε α} {a : α} (h : r.toOption = some a) :
    r = .ok a := by
  cases r with
  | ok b => exact congrArg _ (Option.some.inj h)
  | error e => cases h

/-! ## Texts without surrogates -/

namespace Text

/-- A text without surrogates. -/
def NoSurrogate (t : Text) : Prop := ∀ n, CodePoint.surrogate n ∉ t

theorem noSurrogate_ofString (s : String) : (ofString s).NoSurrogate := by
  intro n hn
  obtain ⟨c, -, hc⟩ := List.mem_map.1 hn
  cases hc

theorem toString?_of_surrogate {t : Text} (h : ¬ t.NoSurrogate) : t.toString? = none := by
  suffices t.chars? = none by rw [toString?, this]; rfl
  induction t with
  | nil => exact absurd (fun n hn => by cases hn) h
  | cons p t ih =>
    cases p with
    | surrogate n => rfl
    | scalar c =>
      have ht : ¬ NoSurrogate t := by
        intro hn
        refine h fun n hm => ?_
        rcases List.mem_cons.1 hm with hm | hm
        · cases hm
        · exact hn n hm
      rw [chars?, ih ht]
      rfl

theorem exists_ofString {t : Text} (h : t.NoSurrogate) : ∃ s, t = ofString s := by
  suffices ∃ cs : List Char, t = cs.map .scalar by
    obtain ⟨cs, rfl⟩ := this
    exact ⟨String.ofList cs, by simp [ofString]⟩
  induction t with
  | nil => exact ⟨[], rfl⟩
  | cons p t ih =>
    obtain ⟨cs, rfl⟩ := ih fun n hn => h n (List.mem_cons_of_mem p hn)
    cases p with
    | scalar c => exact ⟨c :: cs, rfl⟩
    | surrogate n => exact absurd (List.mem_cons_self ..) (h n)

end Text

/-! ## Checking what was written -/

theorem Checked.list_map {α : Type} {check : Json → Checked α} {toJson : α → Json}
    (origin : Origin) (h : ∀ a, check (toJson a) = .ok a) (as : List α) :
    Checked.list origin check (.arr (as.map toJson)) = .ok as := by
  suffices ∀ index, Checked.each check index (as.map toJson) = .ok as from this 0
  induction as with
  | nil => intro index; rfl
  | cons a as ih => intro index; simp [Checked.each, Checked.within, h a, ih]

theorem Field.ofMembers_toJson (origin : Origin) (f : Field) :
    Checked.record origin "Field" Field.ofMembers f.toJson = .ok f := by
  simp [Checked.record, Field.toJson, Field.ofMembers, Checked.part, Checked.matchedKey?,
    Json.find?, Checked.extras, Checked.within, Checked.string, Checked.bool]

theorem RecordType.ofMembers_toJson (origin : Origin) (t : RecordType) :
    Checked.record origin "Type" (RecordType.ofMembers origin) t.toJson = .ok t := by
  simp [Checked.record, RecordType.toJson, RecordType.ofMembers, Checked.part,
    Checked.matchedKey?, Json.find?, Checked.extras, Checked.within, Checked.string,
    Checked.list_map origin (Field.ofMembers_toJson origin)]

theorem Operation.ofMembers_toJson (origin : Origin) (o : Operation) :
    Checked.record origin "Operation" Operation.ofMembers o.toJson = .ok o := by
  simp [Checked.record, Operation.toJson, Operation.ofMembers, Checked.part, Checked.matchedKey?,
    Json.find?, Checked.extras, Checked.within, Checked.string, Checked.bool]

theorem Capability.ofMembers_toJson (origin : Origin) (c : Capability) :
    Checked.record origin "Capability" Capability.ofMembers c.toJson = .ok c := by
  simp [Checked.record, Capability.toJson, Capability.ofMembers, Checked.part,
    Checked.matchedKey?, Json.find?, Checked.extras, Checked.within, Checked.string, Checked.bool]

namespace Specification

/-- A specification without surrogates has a JSON value, which is checked as the specification. -/
theorem ofJson_toJson (origin : Origin) {s : Specification} (h : s.version.NoSurrogate) :
    ∃ v, s.toJson? = some v ∧ ofJson origin v = .ok s := by
  obtain ⟨version, operations, types, capabilities⟩ := s
  obtain ⟨version, rfl⟩ := Text.exists_ofString h
  refine ⟨_, by rw [toJson?, Text.toString?_ofString]; rfl, ?_⟩
  simp [ofJson, Checked.record, ofMembers, Checked.part, Checked.matchedKey?, Json.find?,
    Checked.extras, Checked.within, Checked.string,
    Checked.list_map origin (Operation.ofMembers_toJson origin),
    Checked.list_map origin (RecordType.ofMembers_toJson origin),
    Checked.list_map origin (Capability.ofMembers_toJson origin)]

theorem ofJson_noSurrogate {origin : Origin} {v : Json} {s : Specification}
    (h : ofJson origin v = .ok s) : s.version.NoSurrogate := by
  cases v with
  | obj members =>
    simp only [ofJson, Checked.record, ofMembers] at h
    split at h
    · cases h; exact Text.noSurrogate_ofString _
    · cases h
  | _ => cases h

end Specification

/-! ## The JSON value is plain -/

theorem Field.plain_toJson (depth : Nat) (f : Field) : Json.Plain (depth + 1) f.toJson := by
  refine .obj fun m hm => ?_
  simp only [List.mem_cons, List.not_mem_nil, or_false] at hm
  rcases hm with rfl | rfl | rfl | rfl | rfl <;> constructor

theorem RecordType.plain_toJson (depth : Nat) (t : RecordType) :
    Json.Plain (depth + 3) t.toJson := by
  refine .obj fun m hm => ?_
  simp only [List.mem_cons, List.not_mem_nil, or_false] at hm
  rcases hm with rfl | rfl | rfl
  · exact .str
  · exact .str
  · refine .arr fun v hv => ?_
    obtain ⟨f, -, rfl⟩ := List.mem_map.1 hv
    exact f.plain_toJson depth

theorem Operation.plain_toJson (depth : Nat) (o : Operation) :
    Json.Plain (depth + 1) o.toJson := by
  refine .obj fun m hm => ?_
  simp only [List.mem_cons, List.not_mem_nil, or_false] at hm
  rcases hm with rfl | rfl | rfl | rfl | rfl <;> constructor

theorem Capability.plain_toJson (depth : Nat) (c : Capability) :
    Json.Plain (depth + 1) c.toJson := by
  refine .obj fun m hm => ?_
  simp only [List.mem_cons, List.not_mem_nil, or_false] at hm
  rcases hm with rfl | rfl | rfl <;> constructor

namespace Specification

theorem plain_toJson (depth : Nat) {s : Specification} {v : Json} (h : s.toJson? = some v) :
    Json.Plain (depth + 5) v := by
  obtain ⟨version, -, rfl⟩ := Option.map_eq_some_iff.1 h
  refine .obj fun m hm => ?_
  simp only [List.mem_cons, List.not_mem_nil, or_false] at hm
  rcases hm with rfl | rfl | rfl | rfl
  · exact .str
  · refine .arr fun v hv => ?_
    obtain ⟨o, -, rfl⟩ := List.mem_map.1 hv
    exact o.plain_toJson (depth + 2)
  · refine .arr fun v hv => ?_
    obtain ⟨t, -, rfl⟩ := List.mem_map.1 hv
    exact t.plain_toJson depth
  · refine .arr fun v hv => ?_
    obtain ⟨c, -, rfl⟩ := List.mem_map.1 hv
    exact c.plain_toJson (depth + 2)

/-! ## The round trip -/

theorem ofBytes_encodeString (t : String) : ofBytes (Utf8.encodeString t) = ofText t := by
  rw [ofBytes, ofText, Json.readBytes, Utf8.encodeString, Utf8.decode_encode]

/-- The text of a specification is read as one value, which is checked as the specification. -/
theorem exists_value {s : Specification} (h : s.version.NoSurrogate) :
    ∃ t v, s.toText? = some t ∧ (∀ depth, Json.readDeep (depth + 5) t.toList = some v) ∧
      ∀ origin, ofJson origin v = .ok s := by
  obtain ⟨v, hv, -⟩ := ofJson_toJson .text h
  refine ⟨Json.text v, v, by rw [toText?, hv]; rfl, fun depth => ?_, fun origin => ?_⟩
  · rw [Json.text, String.toList_ofList]
    exact Json.readDeep_write (plain_toJson depth hv)
  · obtain ⟨v', hv', hs⟩ := ofJson_toJson origin h
    rw [hv] at hv'
    cases hv'
    exact hs

/-- The text of a specification is read as the specification. -/
theorem exists_text {s : Specification} (h : s.version.NoSurrogate) :
    ∃ t, s.toText? = some t ∧ ofText t = .ok s := by
  obtain ⟨t, v, ht, hread, hs⟩ := exists_value h
  have hr : Json.read t.toList = some v := hread 195
  exact ⟨t, ht, by rw [ofText, hr]; exact hs .text⟩

/-- A specification has a text exactly if its version has no surrogate. -/
theorem toText?_eq_none {spec : Specification} :
    spec.toText? = none ↔ ¬ spec.version.NoSurrogate := by
  constructor
  · intro h hv
    obtain ⟨text, ht, -⟩ := exists_text hv
    rw [h] at ht
    cases ht
  · intro h
    rw [toText?, toJson?, Text.toString?_of_surrogate h]
    rfl

theorem ofBytes_of_toText? {spec : Specification} {text : String} (h : spec.toText? = some text) :
    ofBytes (Utf8.encodeString text) = .ok spec := by
  have hv : spec.version.NoSurrogate := by
    by_contra hv
    rw [toText?_eq_none.2 hv] at h
    cases h
  obtain ⟨text', htext, hread⟩ := exists_text hv
  rw [h] at htext
  cases htext
  rw [ofBytes_encodeString, hread]

theorem noSurrogate_of_ofText {t : String} {s : Specification} (h : ofText t = .ok s) :
    s.version.NoSurrogate := by
  unfold ofText at h
  split at h
  · exact ofJson_noSurrogate h
  · cases h

theorem noSurrogate_of_ofBytes {bytes : List UInt8} {s : Specification}
    (h : ofBytes bytes = .ok s) : s.version.NoSurrogate := by
  unfold ofBytes at h
  split at h
  · exact ofJson_noSurrogate h
  · cases h

/-- **Specifications survive their JSON text.** A specification without surrogates has a text, and
    that text, or its bytes, is read as the specification. What is read from any text or bytes has
    a text in turn, and reading that and writing it again changes nothing. -/
theorem ofText_toText :
    (∀ s : Specification, s.version.NoSurrogate →
      ∃ t, s.toText? = some t ∧ ofText t = .ok s ∧ ofBytes (Utf8.encodeString t) = .ok s) ∧
    (∀ t s, ofText t = .ok s → ∃ u, s.toText? = some u ∧ ofText u = .ok s) ∧
    (∀ bytes s, ofBytes bytes = .ok s →
      ∃ u, s.toText? = some u ∧ ofBytes (Utf8.encodeString u) = .ok s) := by
  refine ⟨fun s h => ?_, fun t s h => exists_text (noSurrogate_of_ofText h), fun bytes s h => ?_⟩
  · obtain ⟨t, ht, hs⟩ := exists_text h
    exact ⟨t, ht, hs, by rw [ofBytes_encodeString, hs]⟩
  · obtain ⟨t, ht, hs⟩ := exists_text (noSurrogate_of_ofBytes h)
    exact ⟨t, ht, by rw [ofBytes_encodeString, hs]⟩

/-- A specification with quotes, control characters and a type without fields. -/
def sample : Specification where
  version := Text.ofString "\"1\\\x01\n é😀"
  operations := [⟨"Get", "", "any", "string", false⟩]
  types := [⟨"Empty", "\t", []⟩, ⟨"Item", "", [⟨"id", "string", true, false, "\x7f"⟩]⟩]
  capabilities := []

/-- The sample, and a text with a default and an escape in it. -/
theorem ofText_toText_sample :
    (sample.version.NoSurrogate ∧ ∃ t, sample.toText? = some t ∧ ofText t = .ok sample ∧
      ofBytes (Utf8.encodeString t) = .ok sample) ∧
    ∃ s, ofText "\x7b\"capabilities\": [\x7b\"name\": \"\\u0001\"\x7d]\x7d" = .ok s ∧
      ∃ u, s.toText? = some u ∧ ofText u = .ok s := by
  have hs : sample.version.NoSurrogate := Text.noSurrogate_ofString _
  have ht : ofText "\x7b\"capabilities\": [\x7b\"name\": \"\\u0001\"\x7d]\x7d" =
      .ok { capabilities := [⟨"\x01", "", true⟩] } := by cbv
  exact ⟨⟨hs, ofText_toText.1 sample hs⟩, _, ht, ofText_toText.2.1 _ _ ht⟩

end Specification

end Scaffold
