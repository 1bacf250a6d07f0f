/-
  Text as a list of code points.

  Source text, rendered text and decoded string literals may hold code points that no `Char` has:
  a lone surrogate that a string escape spells, or a byte of a source file that belongs to no
  UTF-8 sequence. `CodePoint` adds these to the characters; `Text.toString?` is defined exactly
  when a text has none of them.
-/

namespace Scaffold

/-- A Unicode code point: a character, or one of the 2048 surrogates `U+D800 … U+DFFF`. -/
inductive CodePoint where
  | scalar (c : Char)
  | surrogate (n : Fin 2048)
  deriving DecidableEq, Inhabited

namespace CodePoint

/-- The number of a code point. -/
def toNat : CodePoint → Nat
  | scalar c => c.toNat
  | surrogate n => 0xD800 + n.val

/-- The code point of a number, absent above `U+10FFFF`. -/
def ofNat? (n : Nat) : Option CodePoint :=
  if h : 0xD800 ≤ n ∧ n ≤ 0xDFFF then some (surrogate ⟨n - 0xD800, by omega⟩)
  else if n ≤ 0x10FFFF then some (scalar (Char.ofNat n))
  else none

/-- A byte that belongs to no UTF-8 sequence stands as the low surrogate `U+DC00 + byte`. -/
def stray (b : UInt8) : CodePoint :=
  surrogate ⟨0x400 + b.toNat, by have := b.toNat_lt; omega⟩

/-- The byte that a stray byte stands for. -/
def strayByte? : CodePoint → Option UInt8
  | scalar _ => none
  | surrogate n =>
    if 0x480 ≤ n.val ∧ n.val < 0x500 then some (UInt8.ofNat (n.val - 0x400)) else none

/-- The character that a code point is, if it is one. -/
def char? : CodePoint → Option Char
  | scalar c => some c
  | surrogate _ => none

/-- A test on characters; a surrogate answers `other`. -/
def satisfies (test : Char → Bool) (other : Bool) : CodePoint → Bool
  | scalar c => test c
  | surrogate _ => other

/-- Whether a code point is this character. -/
def is (p : CodePoint) (c : Char) : Bool :=
  match p with
  | scalar d => c == d
  | surrogate _ => false

end CodePoint

/-- A list of code points. -/
abbrev Text := List CodePoint

namespace Text

/-- The code points of a string. -/
def ofString (s : String) : Text :=
  s.toList.map .scalar

/-- The characters of a text that holds no surrogate. -/
def chars? : Text → Option (List Char)
  | [] => some []
  | .scalar c :: rest => (chars? rest).map (c :: ·)
  | .surrogate _ :: _ => none

/-- The string of a text that holds no surrogate. -/
def toString? (t : Text) : Option String :=
  (chars? t).map String.ofList

/-- What follows these characters at the start of a text. -/
def after? : List Char → Text → Option Text
  | [], t => some t
  | c :: cs, p :: t => if p.is c then after? cs t else none
  | _ :: _, [] => none

/-- Whether a text starts with these characters. -/
def startsWith (cs : List Char) (t : Text) : Bool :=
  (after? cs t).isSome

/-- Whether the first code point of a text satisfies a test on characters. -/
def headIs (test : Char → Bool) : Text → Bool
  | .scalar c :: _ => test c
  | _ => false

/-- The number of code points at the start that satisfy a test on characters. -/
def countWhile (test : Char → Bool) : Text → Nat
  | .scalar c :: rest => if test c then countWhile test rest + 1 else 0
  | _ => 0

theorem chars?_map_scalar (cs : List Char) : chars? (cs.map .scalar) = some cs := by
  induction cs with
  | nil => rfl
  | cons c cs ih => simp [chars?, ih]

theorem eq_map_scalar_of_chars? {t : Text} {cs : List Char} (h : chars? t = some cs) :
    t = cs.map .scalar := by
  induction t generalizing cs with
  | nil => cases h; rfl
  | cons p t ih =>
    cases p with
    | surrogate n => cases h
    | scalar c =>
      obtain ⟨rest, hr, rfl⟩ := Option.map_eq_some_iff.1 h
      rw [List.map_cons, ← ih hr]

/-- The text of a string reads back as the string. -/
theorem toString?_ofString (s : String) : toString? (ofString s) = some s := by
  simp [toString?, ofString, chars?_map_scalar]

theorem ofString_inj {a b : String} : ofString a = ofString b ↔ a = b := by
  refine ⟨fun h => ?_, fun h => by rw [h]⟩
  rw [← Option.some.injEq, ← toString?_ofString, h, toString?_ofString]

end Text

end Scaffold
