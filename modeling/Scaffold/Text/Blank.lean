/-
  Blanks and line ends: trimming, splitting into lines, and uniform line ends.
-/
import Scaffold.Text.CodePoint
import Scaffold.Text.Range

namespace Scaffold.Text

/-- The characters that count as blank: separators, tabs, line ends and the four information
    separators. -/
def blanks : Ranges :=
  [(9, 13), (28, 32), (133, 133), (160, 160), (5760, 5760), (8192, 8202), (8232, 8233),
   (8239, 8239), (8287, 8287), (12288, 12288)]

/-- Whether a character is blank. -/
def isBlank (c : Char) : Bool :=
  blanks.contains c.toNat

/-- Remove items that satisfy a test from both ends. -/
def trimBy {α : Type} (test : α → Bool) (xs : List α) : List α :=
  ((xs.dropWhile test).reverse.dropWhile test).reverse

theorem dropWhile_eq_self {α : Type} {test : α → Bool} {xs : List α}
    (h : ∀ x ∈ xs.head?, test x = false) : xs.dropWhile test = xs := by
  cases xs with
  | nil => rfl
  | cons x xs => rw [List.dropWhile_cons_of_neg (by simp [h x rfl])]

/-- Nothing is removed between two ends that fail the test. -/
theorem trimBy_eq_self {α : Type} {test : α → Bool} {xs : List α}
    (hhead : ∀ x ∈ xs.head?, test x = false) (hlast : ∀ x ∈ xs.getLast?, test x = false) :
    trimBy test xs = xs := by
  rw [trimBy, dropWhile_eq_self hhead, dropWhile_eq_self (by rwa [List.head?_reverse]),
    List.reverse_reverse]

/-- Remove blanks from both ends. -/
def trim (cs : List Char) : List Char :=
  trimBy isBlank cs

/-- The characters that end a line by themselves. -/
def isLineEnd (c : Char) : Bool :=
  c == '\n' || c == '\r' || c.toNat == 11 || c.toNat == 12 || c.toNat == 28 || c.toNat == 29 ||
    c.toNat == 30 || c.toNat == 133 || c.toNat == 8232 || c.toNat == 8233

/-- The lines of `cs` when `line` holds the reversed start of the first one. -/
def linesFrom (line : List Char) : List Char → List (List Char)
  | [] => if line.isEmpty then [] else [line.reverse]
  | '\r' :: '\n' :: rest => line.reverse :: linesFrom [] rest
  | c :: rest =>
    if isLineEnd c then line.reverse :: linesFrom [] rest else linesFrom (c :: line) rest

/-- The lines of a text without their ends; a last line end starts no further line. -/
def lines (cs : List Char) : List (List Char) :=
  linesFrom [] cs

/-- Write every line end `\r\n` or `\r` as `\n`. -/
def uniformLines : List Char → List Char
  | [] => []
  | '\r' :: '\n' :: rest => '\n' :: uniformLines rest
  | '\r' :: rest => '\n' :: uniformLines rest
  | c :: rest => c :: uniformLines rest

/-- Put a separator between parts. -/
def joinWith {α : Type} (sep : List α) : List (List α) → List α
  | [] => []
  | [x] => x
  | x :: y :: rest => x ++ sep ++ joinWith sep (y :: rest)

/-- Whether `sub` starts `xs`. -/
def startsWithList {α : Type} [DecidableEq α] : List α → List α → Bool
  | [], _ => true
  | _ :: _, [] => false
  | a :: sub, x :: xs => a == x && startsWithList sub xs

/-- Whether `sub` occurs in `xs` as a run. -/
def occursIn {α : Type} [DecidableEq α] (sub : List α) : List α → Bool
  | [] => sub.isEmpty
  | x :: xs => startsWithList sub (x :: xs) || occursIn sub xs

/-- Replace each occurrence of the non-empty run `a :: old`, from left to right, while `skip`
    further items belong to an occurrence already replaced; at most `limit` times when it is
    given. -/
def replaceRun {α : Type} [DecidableEq α] (old new : List α) (limit : Option Nat) (skip : Nat) :
    List α → List α
  | [] => []
  | x :: xs =>
    match skip with
    | k + 1 => replaceRun old new limit k xs
    | 0 =>
      if limit != some 0 && startsWithList old (x :: xs) then
        new ++ replaceRun old new (limit.map (· - 1)) (old.length - 1) xs
      else x :: replaceRun old new limit 0 xs

/-- Put `new` before each item and at the end, at most `limit` times when it is given. -/
def spread {α : Type} (new : List α) (limit : Option Nat) : List α → List α
  | [] => if limit == some 0 then [] else new
  | x :: xs =>
    if limit == some 0 then x :: xs else new ++ x :: spread new (limit.map (· - 1)) xs

/-- Replace occurrences of a run from left to right; the empty run occurs before each item and at
    the end. -/
def replace {α : Type} [DecidableEq α] (old new : List α) (limit : Option Nat) (xs : List α) :
    List α :=
  if old.isEmpty then spread new limit xs else replaceRun old new limit 0 xs

end Scaffold.Text
