/-
  Whole numbers in decimal notation.
-/
import Scaffold.Text.Blank
import Scaffold.Text.Digit

namespace Scaffold.Number

/-- The decimal digits of a number, without leading zeros. -/
def digits (n : Nat) : List Char :=
  Nat.toDigits 10 n

/-- A whole number: its digits with a minus sign in front of a negative one. -/
def ofInt (n : Int) : List Char :=
  if n < 0 then '-' :: digits n.natAbs else digits n.natAbs

/-- A whole number as a string. -/
def intText (n : Int) : String :=
  String.ofList (ofInt n)

/-- A whole number with zeros between sign and digits up to a least width, the sign counted. -/
def zeroPadded (width : Nat) (n : Int) : List Char :=
  let ds := digits n.natAbs
  if n < 0 then '-' :: (List.replicate (width - 1 - ds.length) '0' ++ ds)
  else List.replicate (width - ds.length) '0' ++ ds

/-- Blanks that may stand around a number: those of ASCII, and every other blank character. -/
def isOuterBlank (c : Char) : Bool :=
  Text.isBlank c && !(28 ≤ c.toNat && c.toNat ≤ 31)

/-- The value of digits of any script with single low lines between them; `value` is that of the
    digits before, if any, and `gap` holds right behind a low line. -/
def readDigits (value : Option Nat) (gap : Bool) : List Char → Option Nat
  | [] => if gap then none else value
  | c :: rest =>
    if c == '_' then
      if gap || value.isNone then none else readDigits value true rest
    else
      match Text.decimalValue? c with
      | some d => readDigits (some (10 * value.getD 0 + d)) false rest
      | none => none

/-- The most digits that a number may be read from. -/
def maxDigits : Nat := 4300

/-- Read a whole number: blanks around it, an optional sign, digits of any script with single low
    lines between them, not too many of them. -/
def readInt (cs : List Char) : Option Int :=
  let body := Text.trimBy isOuterBlank cs
  let (negative, body) :=
    match body with
    | '-' :: rest => (true, rest)
    | '+' :: rest => (false, rest)
    | _ => (false, body)
  if (body.filter (· != '_')).length > maxDigits then none
  else
    match readDigits none false body with
    | none => none
    | some n => some (if negative then -(n : Int) else n)

end Scaffold.Number
