/-
  Which failures of reading a source have a code: `readSource_structured`.

  Two things in a source stop the reader without one: a version with an escape beyond the last code
  point, and a field whose type has no part to take its name from. The first declaration that stops
  the reader decides, so `Uncoded` follows the walk over the declarations: `findings_stops` says
  what one declaration does to it, and `collect_uncoded` what comes of the walk.
-/
import Mathlib
import Scaffold.Proofs.Verdict

namespace Scaffold.Contract

open Source

variable {t : SyntaxTree} {ts : List SyntaxTree} {c : Conventions}

/-! ## Versions -/

theorem ofNat?_eq_none {n : Nat} (h : 0x10FFFF < n) : CodePoint.ofNat? n = none := by
  rw [CodePoint.ofNat?, dif_neg (by omega), if_neg (by omega)]

/-- An escape names a code point beyond the last, or one that needs more than 31 bits. -/
def EscapeFault.IsRange (f : EscapeFault) : Prop := f = .outOfRange ∨ f = .tooLarge

theorem decodeEscape_large (h : IsLargeEscape t) :
    ∃ f, decodeEscape (wording t).toList = .error f ∧ f.IsRange := by
  obtain ⟨-, digits, hdigits, hlarge⟩ := h
  by_cases hn : Text.hexNumber digits > 0x7FFFFFFF
  · exact ⟨.tooLarge, by simp [decodeEscape, hdigits, codePoint, hn, Except.map], Or.inr rfl⟩
  · exact ⟨.outOfRange,
      by simp [decodeEscape, hdigits, codePoint, hn, ofNat?_eq_none hlarge, Except.map], Or.inl rfl⟩

theorem pieces_cons (t : SyntaxTree) (ts : List SyntaxTree) :
    pieces (t :: ts) = (pieces [t]).bind fun value => (pieces ts).map (value ++ ·) := by
  simp only [pieces, bind, Except.bind, Except.map]
  by_cases hf : t.kind = .fragment
  · cases read t <;> cases pieces ts <;> simp [hf]
  by_cases he : t.kind = .escape
  · cases read t with
    | error f => simp [he]
    | ok s => cases hd : decodeEscape s.toList <;> cases pieces ts <;> simp [he, hd]
  · cases pieces ts <;> simp [hf, he]

/-- The first escape beyond the last code point stops the reading of a string. -/
theorem pieces_large (h : ∀ t ∈ ts, t.Every Sound) (hl : ∃ t ∈ ts, IsLargeEscape t) :
    ∃ f, pieces ts = .error (.escape f) ∧ f.IsRange := by
  induction ts with
  | nil => simp at hl
  | cons t ts ih =>
    have ht := h t (by simp)
    rw [pieces_cons]
    by_cases hlarge : IsLargeEscape t
    · obtain ⟨f, hf, hrange⟩ := decodeEscape_large hlarge
      refine ⟨f, ?_, hrange⟩
      simp [pieces, hlarge.1, read_eq (isText_of_sound ht), hf, bind, Except.bind]
    · obtain ⟨value, hvalue⟩ : ∃ value, pieces [t] = .ok value :=
        pieces_ok (by simpa using ht) (by simpa using hlarge)
      obtain ⟨f, hf, hrange⟩ := ih (fun u hu => h u (by simp [hu])) (by simpa [hlarge] using hl)
      exact ⟨f, by simp [hvalue, hf, Except.bind, Except.map], hrange⟩

/-- The string that a variable gives for version. -/
def versionIn (c : Conventions) (t : SyntaxTree) : Option SyntaxTree :=
  if t.kind == .declarator && nameOf t == c.versionConstant then versionValue t else none

/-- The first of the variables that gives a string for version counts. -/
theorem findVersion_eq (h : ∀ t ∈ ts, t.IsText) :
    findVersion c ts =
      match ts.findSome? (versionIn c) with
      | some v => (stringValue v).map some
      | none => .ok none := by
  induction ts with
  | nil => rfl
  | cons t ts ih =>
    have hrest := ih fun u hu => h u (by simp [hu])
    rw [findVersion, List.findSome?_cons, versionIn]
    by_cases hk : t.kind = .declarator
    · simp only [hk, beq_self_eq_true, if_true, Bool.true_and, childText_name (h t (by simp)), bind,
        Except.bind]
      by_cases hn : nameOf t = c.versionConstant
      · simp only [hn, beq_self_eq_true, if_true]
        cases versionValue t with
        | none => exact hrest
        | some v => rfl
      · simpa [hn] using hrest
    · simpa [hk] using hrest

/-! ## What stops the reader -/

/-- Variables that give a version with an escape beyond the last code point. -/
def LargeVersion (c : Conventions) (t : SyntaxTree) : Prop :=
  t.kind = .variableDeclaration ∧
    ∃ v, t.namedChildren.findSome? (versionIn c) = some v ∧ ∃ u ∈ v.namedChildren, IsLargeEscape u

/-- The fields of a declaration, each with the name of its type. -/
def declaredFields (c : Conventions) (t : SyntaxTree) : List (String × SyntaxTree) :=
  if t.kind == .interfaceDeclaration then fieldsOf c t else []

/-- Nothing in a declaration stops the reader. -/
def Clear (c : Conventions) (t : SyntaxTree) : Prop :=
  ¬ LargeVersion c t ∧ NoFault (declaredFields c t)

/-- The first declaration that stops the reader does so without a code: by its version, or by a
    field whose type has no part to take its name from. -/
inductive Uncoded (c : Conventions) : List (Option SyntaxTree × SyntaxTree) → Prop
  | version {m : Option SyntaxTree × SyntaxTree} {ms} : LargeVersion c (unwrapExport m.2) →
      Uncoded c (m :: ms)
  | field {m : Option SyntaxTree × SyntaxTree} {ms} {type : String} {field : SyntaxTree} :
      FirstFault (declaredFields c (unwrapExport m.2)) type field .shapeless → Uncoded c (m :: ms)
  | later {m : Option SyntaxTree × SyntaxTree} {ms} : Clear c (unwrapExport m.2) → Uncoded c ms →
      Uncoded c (m :: ms)

/-- The faults without a code that a text can have. -/
def ReadFault.IsUncoded (f : ReadFault) : Prop :=
  f = .shapeless ∨ ∃ e, f = .escape e ∧ e.IsRange

/-- What one declaration does to the reader. -/
inductive Stops (c : Conventions) (t : SyntaxTree) : Except ReadFault Findings → Prop
  | not {part : Findings} : Clear c t → Stops c t (.ok part)
  | version {e : EscapeFault} : LargeVersion c t → e.IsRange → Stops c t (.error (.escape e))
  | field {type : String} {field : SyntaxTree} : ¬ LargeVersion c t →
      FirstFault (declaredFields c t) type field .shapeless → Stops c t (.error .shapeless)
  | unresolved {type text name : String} {field : SyntaxTree} : ¬ LargeVersion c t →
      FirstFault (declaredFields c t) type field (.unresolved text) →
      Stops c t (.error (.unresolved type name text))

theorem findings_stops {m : Option SyntaxTree × SyntaxTree} (h : PairIsSound m) :
    Stops c (unwrapExport m.2) (findings c m) := by
  have ht := every_unwrapExport h.1
  unfold findings
  generalize unwrapExport m.2 = t at ht ⊢
  by_cases hv : t.kind = .variableDeclaration
  · have hfields : declaredFields c t = [] := by simp [declaredFields, hv]
    have hchildren : ∀ u ∈ t.namedChildren, u.Every Sound := fun u hu =>
      ht.child (mem_children_of_namedChildren hu)
    simp only [hv, beq_self_eq_true, if_true,
      findVersion_eq (c := c) fun u hu => isText_of_sound (hchildren u hu)]
    cases hfind : t.namedChildren.findSome? (versionIn c) with
    | none =>
      refine .not ⟨?_, by simp [hfields, NoFault]⟩
      rintro ⟨-, v, hv, -⟩
      rw [hfind] at hv
      cases hv
    | some v =>
      obtain ⟨d, hd, hdv⟩ := List.exists_of_findSome?_eq_some hfind
      have hvs : v.Every Sound := by
        unfold versionIn at hdv
        split at hdv
        · exact every_of_versionValue (hchildren d hd) hdv
        · cases hdv
      have hpieces : ∀ u ∈ v.namedChildren, u.Every Sound := fun u hu =>
        hvs.child (mem_children_of_namedChildren hu)
      by_cases hlarge : ∃ u ∈ v.namedChildren, IsLargeEscape u
      · obtain ⟨f, hf, hrange⟩ := pieces_large hpieces hlarge
        simp only [stringValue, hf, Except.map]
        exact .version ⟨hv, v, hfind, hlarge⟩ hrange
      · push Not at hlarge
        obtain ⟨value, hvalue⟩ := pieces_ok hpieces hlarge
        simp only [stringValue, hvalue, Except.map]
        refine .not ⟨?_, by simp [hfields, NoFault]⟩
        rintro ⟨-, v', hv', u, hu, hl⟩
        rw [hfind] at hv'
        cases hv'
        exact hlarge u hu hl
  · have hno : ¬ LargeVersion c t := fun hl => hv hl.1
    by_cases hi : t.kind = .interfaceDeclaration
    · have hfields : declaredFields c t = fieldsOf c t := by simp [declaredFields, hi]
      simp only [hi]
      rcases interfaceFindings_cases (c := c) (isText_of_sound ht) fun p hp =>
        isText_of_sound (h.2 p hp) with ⟨part, hpart, -, hclear⟩ | ⟨type, field, f, hfirst, he⟩
      · rw [if_neg (by decide), if_pos (by decide), hpart]
        exact .not ⟨hno, hfields ▸ hclear⟩
      · rw [if_neg (by decide), if_pos (by decide), he]
        obtain ⟨-, -, -, -, u, -, hf⟩ := id hfirst
        rw [← hfields] at hfirst
        rcases hf.cases with rfl | ⟨text, rfl⟩
        · exact .field hno hfirst
        · exact .unresolved hno hfirst
    · rw [if_neg (by simpa using hv), if_neg (by simpa using hi)]
      exact .not ⟨hno, by simp [declaredFields, hi, NoFault]⟩

/-- The walk ends with a fault without code exactly where the first declaration that stops it has
    none; any other fault is that a union has no name. -/
theorem collect_uncoded {ms : List (Option SyntaxTree × SyntaxTree)} (h : ∀ m ∈ ms, PairIsSound m)
    (found : Findings) :
    (Uncoded c ms ∧ ∃ all f, collect c found ms = (all, some f) ∧ f.IsUncoded) ∨
    ¬ Uncoded c ms ∧ ∃ all stop, collect c found ms = (all, stop) ∧
      ∀ f ∈ stop, ∃ type name text, f = .unresolved type name text := by
  induction ms generalizing found with
  | nil => exact Or.inr ⟨(by intro hu; cases hu), found, none, rfl, by simp⟩
  | cons m ms ih =>
    have hstops := findings_stops (c := c) (h m (by simp))
    rw [collect]
    generalize findings c m = result at hstops ⊢
    cases hstops with
    | @not part hclear =>
      have hiff : Uncoded c (m :: ms) ↔ Uncoded c ms := by
        refine ⟨fun hu => ?_, .later hclear⟩
        cases hu with
        | version hlarge => exact absurd hlarge hclear.1
        | field hfirst => exact absurd hclear.2 hfirst.not_noFault
        | later _ hrest => exact hrest
      rw [hiff]
      exact ih (fun x hx => h x (by simp [hx])) (found.append part)
    | version hlarge hrange =>
      exact Or.inl ⟨.version hlarge, found, _, rfl, Or.inr ⟨_, rfl, hrange⟩⟩
    | field _ hfirst => exact Or.inl ⟨.field hfirst, found, _, rfl, Or.inl rfl⟩
    | unresolved hno hfirst =>
      refine Or.inr ⟨fun hu => ?_, found, _, rfl, by simp⟩
      cases hu with
      | version hlarge => exact hno hlarge
      | field hfirst' => exact absurd (hfirst.unique hfirst').2.2 (by simp)
      | later hclear _ => exact hfirst.not_noFault hclear.2

/-! ## Codes -/

/-- A specification, or a failure with a code of the parser. -/
def Structured (r : Except Failure Specification) : Prop :=
  (∃ s, r = .ok s) ∨
    ∃ e cause, r = .error (.coded e cause) ∧ e.owner = "AXE" ∧ e.letter = .ok "P"

theorem structured_parserFailure (n : Int) (message : String) (details : List (String × Json)) :
    Structured (.error (parserFailure n message details)) := by
  refine Or.inr ⟨_, _, rfl, ?_, ?_⟩
  · simp [CodedError.ofArea, CodedError.owner, Area.code, Area.owner]
  · simp only [CodedError.ofArea, CodedError.letter, Area.code, Area.owner, Area.letter,
      CodedError.tail?, String.toList_ofList]
    rfl

theorem Structured.toBool_or_code {r : Except Failure Specification} (h : Structured r) :
    r.toBool = true ∨ (codeOf r).isSome = true := by
  rcases h with ⟨s, rfl⟩ | ⟨e, cause, rfl, -⟩
  · exact Or.inl rfl
  · exact Or.inr rfl

theorem structured_missing (path : String) (m : Missing) :
    Structured (.error (m.failure path)) := by
  cases m <;> exact structured_parserFailure _ _ _

/-- A failure without code that reading a text can end with. -/
def IsBare (f : Failure) : Prop :=
  f = .shapeless ∨ f = .escape .outOfRange ∨ f = .escape .tooLarge

theorem not_structured_of_isBare {f : Failure} (h : IsBare f) : ¬ Structured (.error f) := by
  rintro (⟨s, hs⟩ | ⟨e, cause, he, -⟩)
  · cases hs
  · rcases h with rfl | rfl | rfl <;> cases he

theorem ReadFault.IsUncoded.isBare {f : ReadFault} (h : f.IsUncoded) (path : String) :
    IsBare (f.failure path) := by
  rcases h with rfl | ⟨e, rfl, rfl | rfl⟩ <;> simp [IsBare, ReadFault.failure]

theorem readTree_structured (path : String) (source : Text) (ht : t.Every Sound) :
    ((t.Broken ∨ ¬ Uncoded c (topLevel t)) ∧ Structured (readTree path c source t).result) ∨
    (¬ t.Broken ∧ Uncoded c (topLevel t)) ∧
      ∃ f, (readTree path c source t).result = .error f ∧ IsBare f := by
  unfold readTree
  split
  · next e he =>
    have hb : t.Broken := by
      by_contra hb
      rw [(SyntaxTree.firstError_eq_none t).2 hb] at he
      cases he
    exact Or.inl ⟨Or.inl hb, structured_parserFailure _ _ _⟩
  · next hnone =>
    have hb := (SyntaxTree.firstError_eq_none t).1 hnone
    rcases collect_uncoded (c := c) (fun m hm => pairIsSound_topLevel ht hm) {} with
      ⟨hu, all, f, hall, hf⟩ | ⟨hu, all, stop, hall, hstop⟩
    · rw [hall]
      exact Or.inr ⟨⟨hb, hu⟩, _, rfl, hf.isBare path⟩
    · rw [hall]
      refine Or.inl ⟨Or.inr hu, ?_⟩
      cases stop with
      | some f =>
        obtain ⟨type, name, text, rfl⟩ := hstop f rfl
        exact structured_parserFailure _ _ _
      | none =>
        cases hm : missing? all.specification with
        | none =>
          simp only [hm]
          exact Or.inl ⟨_, rfl⟩
        | some m =>
          simp only [hm]
          exact structured_missing path m

/-- **Failures of reading a text.** Reading any text by any conventions gives a specification or a
    failure with a code of the parser, unless the source is not broken and the first declaration
    that stops the reader has no code for it: its version holds an escape beyond the last code
    point, or the first field with a fault has a type without a part to take its name from. Then
    the failure is one of the three without code. -/
theorem readSource_structured (path : String) (c : Conventions) (source : String) :
    (Structured (readSource path c (Utf8.encodeString source)).result ↔
      ((parse (Text.ofString source)).Broken ∨
        ¬ Uncoded c (topLevel (parse (Text.ofString source))))) ∧
    (Structured (readSource path c (Utf8.encodeString source)).result ∨
      ∃ f, (readSource path c (Utf8.encodeString source)).result = .error f ∧ IsBare f) := by
  have hunits : Utf8.units (Utf8.encodeString source) = Text.ofString source :=
    Utf8.units_of_decode (Utf8.decode_encode source.toList)
  have ht : (parse (Text.ofString source)).Every Sound :=
    parse_sound (Text.noSurrogate_ofString source)
  simp only [readSource, hunits]
  rcases readTree_structured (c := c) path (Text.ofString source) ht with
    ⟨hcond, hs⟩ | ⟨⟨hb, hu⟩, f, hf, hbare⟩
  · exact ⟨iff_of_true hs hcond, Or.inl hs⟩
  · refine ⟨iff_of_false ?_ (not_or.2 ⟨hb, not_not.2 hu⟩), Or.inr ⟨f, hf, hbare⟩⟩
    rw [hf]
    exact not_structured_of_isBare hbare

/-- A version beyond the last code point and a type without a part to name it. -/
theorem not_structured_sources :
    ¬ Structured (readSource "a" {}
      (Utf8.encodeString "const MCP_VERSION = \"\\u\x7b110000\x7d\"")).result ∧
    ¬ Structured (readSource "a" {}
      (Utf8.encodeString "interface ItemType \x7b id: const[] \x7d")).result :=
  ⟨fun h => absurd h.toBool_or_code (by decide +kernel),
    fun h => absurd h.toBool_or_code (by decide +kernel)⟩

end Scaffold.Contract
