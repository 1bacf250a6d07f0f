/-
  Descriptions in block comments.

  * `blockComment lines tags`: the comment that has each line of a description behind a star, and
    perhaps tags behind the last one.
  * `lines_flatMap_starred`: its lines are found again, as the line ends between them are the only
    ones. `docLine_starred`: behind its star each line stands as it was, also if it is empty or
    starts with a star itself.
  * `docText_blockComment`: what is read from the comment is the lines of the description.
  * `description_read`: it describes the node right behind the comment, or what that node exports.
-/
import Scaffold.Proofs.Declarations
import Scaffold.Proofs.Interpolation

namespace Scaffold

/-! ## Trimming -/

namespace Text

section

variable {α : Type} {test : α → Bool} {xs ys : List α}

theorem trimBy_cons {x : α} (h : test x = true) : trimBy test (x :: xs) = trimBy test xs := by
  rw [trimBy, List.dropWhile_cons_of_pos h, trimBy]

/-- What stands between two items that fail the test is kept. -/
theorem trimBy_append (hne : xs ≠ []) (hhead : ∀ x ∈ xs.head?, test x = false)
    (hlast : ∀ x ∈ xs.getLast?, test x = false) (ys : List α) :
    ∃ zs, trimBy test (xs ++ ys) = xs ++ zs ∧ ((∀ y ∈ ys, test y = true) → zs = []) := by
  have hstart : ∀ x ∈ (xs ++ ys).head?, test x = false := by
    rw [List.head?_append_of_ne_nil xs hne]
    exact hhead
  have hstop : xs.reverse.dropWhile test = xs.reverse :=
    dropWhile_eq_self (by rwa [List.head?_reverse])
  rw [trimBy, dropWhile_eq_self hstart, List.reverse_append, List.dropWhile_append, hstop]
  split
  · exact ⟨[], by simp, fun _ => rfl⟩
  · next hsome =>
    refine ⟨(ys.reverse.dropWhile test).reverse, by simp, fun hys => ?_⟩
    exact absurd (List.isEmpty_iff.2 (List.dropWhile_eq_nil_iff.2 (by simpa using hys))) hsome

end

/-! ## Lines -/

theorem isBlank_of_isLineEnd {c : Char} (h : isLineEnd c = true) : isBlank c = true := by
  have hall : ∀ n ∈ [10, 13, 11, 12, 28, 29, 30, 133, 8232, 8233], blanks.contains n = true := by
    decide
  refine hall c.toNat ?_
  simp only [isLineEnd, Bool.or_eq_true, beq_iff_eq] at h
  simp only [List.mem_cons, List.not_mem_nil, or_false]
  rcases h with ((((((((rfl | rfl) | h) | h) | h) | h) | h) | h) | h) | h
  · exact Or.inl rfl
  · exact Or.inr (Or.inl rfl)
  all_goals simp [h]

theorem linesFrom_cons {c : Char} (h : isLineEnd c = false) (line rest : List Char) :
    linesFrom line (c :: rest) = linesFrom (c :: line) rest := by
  rw [linesFrom.eq_def]
  split
  · next heq => cases heq
  · next heq =>
    cases heq
    cases h
  · next heq =>
    cases heq
    simp [h]

theorem linesFrom_newline (line rest : List Char) :
    linesFrom line ('\n' :: rest) = line.reverse :: linesFrom [] rest := by
  rw [linesFrom.eq_def]
  split
  · next heq => cases heq
  · next heq => simp at heq
  · next heq =>
    cases heq
    simp [isLineEnd]

theorem linesFrom_append {cs : List Char} (h : ∀ c ∈ cs, isLineEnd c = false)
    (line rest : List Char) :
    linesFrom line (cs ++ rest) = linesFrom (cs.reverse ++ line) rest := by
  induction cs generalizing line with
  | nil => rfl
  | cons c cs ih =>
    rw [List.cons_append, linesFrom_cons (h c List.mem_cons_self),
      ih fun d hd => h d (List.mem_cons_of_mem c hd), List.reverse_cons, List.append_assoc,
      List.singleton_append]

/-- A line that is ended by `\n` is the first one. -/
theorem lines_append {cs : List Char} (h : ∀ c ∈ cs, isLineEnd c = false) (rest : List Char) :
    lines (cs ++ '\n' :: rest) = cs :: lines rest := by
  rw [lines, linesFrom_append h, List.append_nil, linesFrom_newline, List.reverse_reverse, lines]

/-- A line that has begun is the first one, with what follows up to the next line end. -/
theorem linesFrom_of_ne_nil {line : List Char} (h : line ≠ []) (rest : List Char) :
    ∃ more ls, linesFrom line rest = (line.reverse ++ more) :: ls := by
  fun_induction linesFrom line rest with
  | case1 line hempty => exact absurd (List.isEmpty_iff.1 hempty) h
  | case2 line hempty => exact ⟨[], [], by simp⟩
  | case3 line rest ih => exact ⟨[], linesFrom [] rest, by simp⟩
  | case4 line c rest _ hend ih => exact ⟨[], linesFrom [] rest, by simp⟩
  | case5 line c rest _ hend ih =>
    obtain ⟨more, ls, heq⟩ := ih (by simp)
    exact ⟨c :: more, ls, by simpa using heq⟩

theorem lines_of_start {cs : List Char} (hne : cs ≠ []) (h : ∀ c ∈ cs, isLineEnd c = false)
    (rest : List Char) : ∃ more ls, lines (cs ++ rest) = (cs ++ more) :: ls := by
  rw [lines, linesFrom_append h, List.append_nil]
  simpa using linesFrom_of_ne_nil (List.reverse_ne_nil_iff.2 hne) rest

theorem joinWith_eq_intercalate {α : Type} (sep : List α) (xs : List (List α)) :
    joinWith sep xs = sep.intercalate xs := by
  induction xs with
  | nil => rfl
  | cons x xs ih =>
    cases xs with
    | nil => simp [joinWith]
    | cons y ys => rw [joinWith, ih, List.intercalate_cons_cons]

/-- Parts that are joined start with the first part. -/
theorem intercalate_cons_eq {α : Type} (sep x : List α) (xs : List (List α)) :
    ∃ rest, sep.intercalate (x :: xs) = x ++ rest := by
  cases xs with
  | nil => exact ⟨[], by simp⟩
  | cons y ys => exact ⟨sep ++ sep.intercalate (y :: ys), by simp⟩

/-- A last part is put behind the others and a separator. -/
theorem intercalate_concat {α : Type} (sep : List α) {xs : List (List α)} (hne : xs ≠ [])
    (x : List α) : sep.intercalate (xs ++ [x]) = sep.intercalate xs ++ sep ++ x := by
  induction xs with
  | nil => exact absurd rfl hne
  | cons y ys ih =>
    cases ys with
    | nil => simp
    | cons z zs =>
      rw [List.cons_append, List.intercalate_cons_of_ne_nil (by simp), ih (by simp),
        List.intercalate_cons_cons]
      simp

theorem intercalate_concat_eq {α : Type} (sep : List α) (xs : List (List α)) (x : List α) :
    ∃ before, sep.intercalate (xs ++ [x]) = before ++ x := by
  cases xs with
  | nil => exact ⟨[], by simp⟩
  | cons y ys => exact ⟨_, intercalate_concat sep (by simp) x⟩

end Text

namespace Contract

open Source SyntaxTree

/-! ## Block comments -/

/-- A line of a description: it is one line, has no blank at its ends and is no tag. -/
structure IsDescriptionLine (line : List Char) : Prop where
  oneLine : ∀ c ∈ line, Text.isLineEnd c = false
  head : ∀ c ∈ line.head?, Text.isBlank c = false
  last : ∀ c ∈ line.getLast?, Text.isBlank c = false
  noTag : isTag line = false

/-- The lines of a description: the first and the last are not empty. -/
structure IsDescription (lines : List (List Char)) : Prop where
  line : ∀ l ∈ lines, IsDescriptionLine l
  first : ∃ l ∈ lines.head?, l ≠ []
  final : ∃ l ∈ lines.getLast?, l ≠ []

/-- A line behind its star. -/
def starred (line : List Char) : List Char :=
  ' ' :: '*' :: ' ' :: line

/-- What may follow the description in a comment: nothing, or a tag and anything behind it. -/
inductive IsTagged : List Char → Prop
  | none : IsTagged []
  | tag {line : List Char} (more : List Char) : isTag line = true →
      IsTagged (starred line ++ '\n' :: more)

/-- The comment that holds a description, each line behind a star, and what follows it. -/
def blockComment (lines : List (List Char)) (tags : List Char) : List Char :=
  '/' :: '*' :: '*' :: '\n' ::
    (lines.flatMap (fun line => starred line ++ ['\n']) ++ tags ++ [' ', '*', '/'])

theorem docBody_marks (body : List Char) :
    docBody ('/' :: '*' :: '*' :: (body ++ ['*', '/'])) = body := by
  simp [docBody, List.isPrefixOf]

theorem oneLine_starred {line : List Char} (h : ∀ c ∈ line, Text.isLineEnd c = false) :
    ∀ c ∈ starred line, Text.isLineEnd c = false := by
  have hstar : ∀ c ∈ [' ', '*', ' '], Text.isLineEnd c = false := by simp; decide
  intro c hc
  rcases List.mem_append.1 (show c ∈ [' ', '*', ' '] ++ line from hc) with hc | hc
  · exact hstar c hc
  · exact h c hc

theorem lines_flatMap_starred {lines : List (List Char)}
    (h : ∀ line ∈ lines, ∀ c ∈ line, Text.isLineEnd c = false) (rest : List Char) :
    Text.lines (lines.flatMap (fun line => starred line ++ ['\n']) ++ rest) =
      lines.map starred ++ Text.lines rest := by
  induction lines with
  | nil => rfl
  | cons line lines ih =>
    rw [List.flatMap_cons, List.append_assoc, List.append_assoc, List.singleton_append,
      Text.lines_append (oneLine_starred (h line List.mem_cons_self)),
      ih fun l hl => h l (List.mem_cons_of_mem line hl), List.map_cons, List.cons_append]

theorem trim_space (cs : List Char) : Text.trim (' ' :: cs) = Text.trim cs :=
  Text.trimBy_cons (by decide)

theorem docLine_starred_of_trim {line rest : List Char}
    (h : Text.trim ('*' :: ' ' :: line) = '*' :: ' ' :: rest) :
    docLine (starred line) = Text.trim rest := by
  rw [docLine, starred, trim_space, h]
  exact trim_space rest

/-- The star before a line is removed, and no star of the line. -/
theorem docLine_starred {line : List Char} (hhead : ∀ c ∈ line.head?, Text.isBlank c = false)
    (hlast : ∀ c ∈ line.getLast?, Text.isBlank c = false) : docLine (starred line) = line := by
  cases line with
  | nil => decide
  | cons c cs =>
    have hstar : Text.trim ('*' :: ' ' :: c :: cs) = '*' :: ' ' :: c :: cs :=
      Text.trimBy_eq_self (by simp; decide) (by simpa using hlast)
    rw [docLine_starred_of_trim hstar]
    exact Text.trimBy_eq_self hhead hlast

/-- A line that starts with a tag behind its star is a tag, whatever follows. -/
theorem isTag_docLine_starred {c : Char} (hc : Text.isWord c = true) (more : List Char) :
    isTag (docLine (starred ('@' :: c :: more))) = true := by
  have hkept : ∀ {start : List Char}, start ≠ [] → (∀ d ∈ start.head?, Text.isBlank d = false) →
      start.getLast? = some c → ∀ more, ∃ rest, Text.trim (start ++ more) = start ++ rest := by
    intro start hne hhead hlast more
    have hstop : ∀ d ∈ start.getLast?, Text.isBlank d = false := by
      rw [hlast]
      simpa using Text.isBlank_of_isWord hc
    obtain ⟨rest, hrest, -⟩ := Text.trimBy_append hne hhead hstop more
    exact ⟨rest, hrest⟩
  obtain ⟨rest, hrest⟩ := @hkept ['*', ' ', '@', c] (by simp) (by simp; decide) rfl more
  obtain ⟨rest', hrest'⟩ := @hkept ['@', c] (by simp) (by simp; decide) rfl rest
  have hline : docLine (starred ('@' :: c :: more)) = '@' :: c :: rest' :=
    (docLine_starred_of_trim hrest).trans hrest'
  rw [hline, isTag, hc]

/-- The lines of a comment that are shown: its lines without their stars, up to the first tag. -/
def shownLines (body : List Char) : List (List Char) :=
  ((Text.lines body).map docLine).takeWhile (!isTag ·)

/-- Behind the description at most an empty line is shown. -/
theorem shownLines_tags {tags : List Char} (h : IsTagged tags) :
    shownLines (tags ++ [' ']) = [] ∨ shownLines (tags ++ [' ']) = [[]] := by
  cases h with
  | none => exact Or.inr (by decide)
  | @tag line more htag =>
    obtain ⟨c, cs, rfl, hc⟩ : ∃ c cs, line = '@' :: c :: cs ∧ Text.isWord c = true := by
      unfold isTag at htag
      split at htag
      · exact ⟨_, _, rfl, htag⟩
      · cases htag
    have hend : Text.isLineEnd c = false := by
      rw [Bool.eq_false_iff]
      intro hend
      have hblank := Text.isBlank_of_isWord hc
      rw [Text.isBlank_of_isLineEnd hend] at hblank
      cases hblank
    obtain ⟨rest, ls, hlines⟩ := @Text.lines_of_start (starred ['@', c]) (by simp [starred])
      (oneLine_starred (by simp [hend]; decide)) (cs ++ '\n' :: more ++ [' '])
    have hfirst : isTag (docLine (starred ['@', c] ++ rest)) = true := isTag_docLine_starred hc rest
    refine Or.inl ?_
    rw [shownLines, show starred ('@' :: c :: cs) ++ '\n' :: more ++ [' '] =
      starred ['@', c] ++ (cs ++ '\n' :: more ++ [' ']) by simp [starred], hlines, List.map_cons,
      List.takeWhile_cons_of_neg (by simp [hfirst])]

theorem shownLines_blockComment {lines : List (List Char)} {tags : List Char}
    (hlines : ∀ l ∈ lines, IsDescriptionLine l) :
    shownLines (docBody (blockComment lines tags)) =
      [] :: (lines ++ shownLines (tags ++ [' '])) := by
  have hbody : docBody (blockComment lines tags) =
      '\n' :: (lines.flatMap (fun line => starred line ++ ['\n']) ++ (tags ++ [' '])) := by
    rw [← docBody_marks ('\n' :: _)]
    simp [blockComment]
  have hsplit : Text.lines (docBody (blockComment lines tags)) =
      [] :: (lines.map starred ++ Text.lines (tags ++ [' '])) := by
    rw [hbody, ← lines_flatMap_starred fun l hl => (hlines l hl).oneLine]
    exact @Text.lines_append [] (by simp) _
  have hdoc : (lines.map starred).map docLine = lines := by
    rw [List.map_map]
    refine (List.map_congr_left fun l hl => ?_).trans (List.map_id lines)
    exact docLine_starred (hlines l hl).head (hlines l hl).last
  have hfirst : docLine [] = [] := by decide
  rw [shownLines, hsplit, List.map_cons, List.map_append, hdoc, hfirst,
    List.takeWhile_cons_of_pos (by decide),
    List.takeWhile_append_of_pos fun l hl => by simp [(hlines l hl).noTag], shownLines]

/-- Joined lines of a description start and end as its first and last line. -/
theorem IsDescription.ends {lines : List (List Char)} (h : IsDescription lines) :
    ['\n'].intercalate lines ≠ [] ∧
      (∀ c ∈ (['\n'].intercalate lines).head?, Text.isBlank c = false) ∧
      ∀ c ∈ (['\n'].intercalate lines).getLast?, Text.isBlank c = false := by
  obtain ⟨first, hfirst, hstart⟩ := h.first
  obtain ⟨final, hfinal, hstop⟩ := h.final
  obtain ⟨rest, rfl⟩ := List.head?_eq_some_iff.1 hfirst
  obtain ⟨more, hmore⟩ := Text.intercalate_cons_eq ['\n'] first rest
  obtain ⟨init, hinit⟩ := List.getLast?_eq_some_iff.1 hfinal
  obtain ⟨before, hbefore⟩ := Text.intercalate_concat_eq ['\n'] init final
  refine ⟨?_, ?_, ?_⟩
  · rw [hmore]
    exact List.append_ne_nil_of_left_ne_nil hstart _
  · rw [hmore, List.head?_append_of_ne_nil first hstart]
    exact (h.line first (List.mem_of_head? hfirst)).head
  · rw [hinit, hbefore, List.getLast?_append_of_ne_nil before hstop]
    exact (h.line final (List.mem_of_getLast? hfinal)).last

/-- The line ends around a description are removed, and nothing of the description. -/
theorem trim_description {lines extra : List (List Char)} (h : IsDescription lines)
    (hextra : extra = [] ∨ extra = [[]]) :
    Text.trim (Text.joinWith ['\n'] ([] :: (lines ++ extra))) = ['\n'].intercalate lines := by
  obtain ⟨hne, hhead, hlast⟩ := h.ends
  have hnil : lines ≠ [] := by
    rintro rfl
    exact hne rfl
  have hnewline : Text.isBlank '\n' = true := by decide
  obtain ⟨stop, hstop, hblank⟩ : ∃ stop, ['\n'].intercalate (lines ++ extra) =
      ['\n'].intercalate lines ++ stop ∧ ∀ c ∈ stop, Text.isBlank c = true := by
    rcases hextra with rfl | rfl
    · exact ⟨[], by simp, by simp⟩
    · refine ⟨['\n'], ?_, by simpa using hnewline⟩
      rw [Text.intercalate_concat _ hnil, List.append_nil]
  obtain ⟨kept, hkept, hall⟩ := Text.trimBy_append hne hhead hlast stop
  rw [Text.joinWith_eq_intercalate, List.intercalate_cons_of_ne_nil (by simp [hnil]), hstop,
    List.nil_append, List.singleton_append, Text.trim, Text.trimBy_cons hnewline, hkept,
    hall hblank, List.append_nil]

/-- **The text of a block comment is the description in it.** -/
theorem docText_blockComment {lines : List (List Char)} {tags : List Char}
    (hlines : IsDescription lines) (htags : IsTagged tags) :
    docText (blockComment lines tags) = some (String.ofList (['\n'].intercalate lines)) := by
  have htext := trim_description hlines (shownLines_tags htags)
  rw [← shownLines_blockComment hlines.line, shownLines] at htext
  have hopens : ['/', '*', '*'].isPrefixOf (blockComment lines tags) = true := by
    simp [blockComment, List.isPrefixOf]
  simp [docText, hopens, htext, hlines.ends.1]

/-! ## Described nodes -/

theorem bind_eq_ok_iff {ε α β : Type} {x : Except ε α} {f : α → Except ε β} {b : β} :
    x.bind f = .ok b ↔ ∃ a, x = .ok a ∧ f a = .ok b := by
  cases x <;> simp [Except.bind]

/-- Whatever a node declares, or exports, has this description. -/
structure DescribedBy (text : String) (m : Option SyntaxTree × SyntaxTree) : Prop where
  type : ∀ c found, findings c m = .ok found → ∀ r ∈ found.types, r.description = text
  operation : ∀ c ops, operationOf c m = .ok ops → ∀ o ∈ ops, o.description = text
  field : ∀ type field, fieldOf type m = .ok field → field.description = text
  capability : ∀ c capability, capabilityOf c m = .ok capability → capability.description = text

section

variable {text : String} {m : Option SyntaxTree × SyntaxTree}

theorem readTyped_description (h : ∀ other, describe m.1 other = .ok text) {c : Conventions}
    {name : String} {ms : List (Option SyntaxTree × SyntaxTree)} {typed : Findings}
    (htyped : readTyped c m.1 name ms = .ok typed) : ∀ r ∈ typed.types, r.description = text := by
  unfold readTyped at htyped
  split at htyped
  · obtain ⟨fields, -, htyped⟩ := bind_eq_ok_iff.1 htyped
    split at htyped
    · cases htyped
      simp
    · rw [h] at htyped
      cases htyped
      simp
  · cases htyped
    simp

theorem findings_description (h : ∀ other, describe m.1 other = .ok text) {c : Conventions}
    {found : Findings} (hfound : findings c m = .ok found) :
    ∀ r ∈ found.types, r.description = text := by
  simp only [findings] at hfound
  split at hfound
  · cases hversion : findVersion c (unwrapExport m.2).namedChildren with
    | error e => rw [hversion] at hfound; cases hfound
    | ok version =>
      rw [hversion] at hfound
      cases hfound
      simp
  split at hfound
  · simp only [interfaceFindings_eq, bind_eq_ok_iff] at hfound
    obtain ⟨name, -, ops, -, typed, htyped, caps, -, hfound⟩ := hfound
    cases hfound
    intro r hr
    exact readTyped_description h htyped r hr
  · cases hfound
    simp

theorem operationOf_description (h : ∀ other, describe m.1 other = .ok text) {c : Conventions}
    {ops : List Operation} (hops : operationOf c m = .ok ops) :
    ∀ o ∈ ops, o.description = text := by
  unfold operationOf at hops
  split at hops
  · split at hops
    · simp only [bind, bind_eq_ok_iff, h] at hops
      obtain ⟨name, -, d, hd, input, -, output, -, hops⟩ := hops
      cases hd
      cases hops
      simp
    · cases hops
      simp
  · cases hops
    simp

theorem fieldOf_description (h : ∀ other, describe m.1 other = .ok text) {type : String}
    {field : Field} (hfield : fieldOf type m = .ok field) : field.description = text := by
  simp only [fieldOf, bind, bind_eq_ok_iff, h] at hfield
  obtain ⟨name, -, word, -, repeated, -, d, hd, hfield⟩ := hfield
  cases hd
  cases hfield
  rfl

theorem capabilityOf_description (h : ∀ other, describe m.1 other = .ok text) {c : Conventions}
    {capability : Capability} (hc : capabilityOf c m = .ok capability) :
    capability.description = text := by
  simp only [capabilityOf, bind, bind_eq_ok_iff, h] at hc
  obtain ⟨name, -, d, hd, hc⟩ := hc
  cases hd
  cases hc
  rfl

theorem describedBy_of_docOf (h : docOf m.1 = .ok (some text)) : DescribedBy text m := by
  have hd : ∀ other, describe m.1 other = .ok text := fun other => by rw [describe, h]
  exact ⟨fun _ _ => findings_description hd, fun _ _ => operationOf_description hd,
    fun _ _ => fieldOf_description hd, fun _ _ => capabilityOf_description hd⟩

end

theorem mem_withPrevious_of_adjacent {previous : Option SyntaxTree} {k x : SyntaxTree}
    (pre post : List SyntaxTree) : (some k, x) ∈ withPrevious previous (pre ++ k :: x :: post) := by
  induction pre generalizing previous with
  | nil => simp [withPrevious]
  | cons p pre ih => exact List.mem_cons_of_mem _ ih

/-- **A block comment describes the node behind it.** The node is one that declares something, or an
    export statement around it, and the description is the lines of the comment up to its tags,
    without anything that the comment puts around them. -/
theorem description_read {lines : List (List Char)} {tags : List Char} {t k x : SyntaxTree}
    {pre post : List SyntaxTree} (hlines : IsDescription lines) (htags : IsTagged tags)
    (hkind : k.kind = .comment) (htext : k.text = (blockComment lines tags).map .scalar)
    (hchildren : t.children = pre ++ k :: x :: post) :
    (some k, x) ∈ withPrevious none t.children ∧
      docOf (some k) = .ok (some (String.ofList (['\n'].intercalate lines))) ∧
      DescribedBy (String.ofList (['\n'].intercalate lines)) (some k, x) := by
  have hdoc : docOf (some k) = .ok (some (String.ofList (['\n'].intercalate lines))) := by
    have hspelling : k.spelling = .ok (String.ofList (blockComment lines tags)) := by
      rw [spelling, htext, Text.toString?, Text.chars?_map_scalar, Option.map_some]
    simp [docOf, hkind, hspelling, Except.map, docText_blockComment hlines htags]
  refine ⟨?_, hdoc, describedBy_of_docOf hdoc⟩
  rw [hchildren]
  exact mem_withPrevious_of_adjacent pre post

/-- The lines of a description, one of them empty and one with a star of its own. -/
def itemLines : List (List Char) :=
  ["Reads an item.".toList, [], "* by its id".toList]

/-- A tag, and a line that goes with it. -/
def itemTags : List Char :=
  starred "@see ItemId".toList ++ '\n' :: " * and the list\n".toList

/-- An exported type behind its description. -/
def itemSource : Text :=
  (blockComment itemLines itemTags).map .scalar ++
    Text.ofString "\nexport interface ItemType \x7b\n  id: string;\n\x7d\n"

theorem isDescription_itemLines : IsDescription itemLines := by
  have hends : ∀ line ∈ itemLines, (line.all fun c => !Text.isLineEnd c) ∧
      (line.head?.all fun c => !Text.isBlank c) ∧ (line.getLast?.all fun c => !Text.isBlank c) ∧
      isTag line = false := by
    decide +kernel
  refine ⟨fun line hline => ?_, ⟨_, rfl, by decide⟩, ⟨_, rfl, by decide⟩⟩
  obtain ⟨hone, hhead, hlast, htag⟩ := hends line hline
  exact ⟨by simpa using hone, by simpa [Option.all_eq_true] using hhead,
    by simpa [Option.all_eq_true] using hlast, htag⟩

theorem description_read_item :
    ∃ k x, (Source.parse itemSource).children = [k, x] ∧ k.kind = .comment ∧
      x.kind = .exportStatement ∧
      docOf (some k) = .ok (some "Reads an item.\n\n* by its id") ∧
      DescribedBy "Reads an item.\n\n* by its id" (some k, x) := by
  have hkinds : (Source.parse itemSource).children.map kind = [.comment, .exportStatement] := by
    decide +kernel
  have htexts : ((Source.parse itemSource).children.map text).head? =
      some ((blockComment itemLines itemTags).map .scalar) := by
    decide +kernel
  obtain ⟨k, rest, hchildren, hk, hrest⟩ := List.map_eq_cons_iff.1 hkinds
  obtain ⟨x, none, rfl, hx, hnone⟩ := List.map_eq_cons_iff.1 hrest
  obtain rfl := List.map_eq_nil_iff.1 hnone
  rw [hchildren] at htexts
  have hd : String.ofList (['\n'].intercalate itemLines) = "Reads an item.\n\n* by its id" := by
    decide +kernel
  obtain ⟨-, hdoc, hdescribed⟩ := description_read isDescription_itemLines
    (.tag _ (by decide +kernel)) hk (Option.some.inj htexts)
    (show _ = [] ++ k :: x :: [] from hchildren)
  rw [hd] at hdoc hdescribed
  exact ⟨k, x, hchildren, hk, hx, hdoc, hdescribed⟩

end Contract

end Scaffold
