/-
  Binary fractions in decimal notation.

  A 64-bit float stands for the reals that round to it. `shortest` picks the decimal with the
  fewest digits among them, the nearest of those, by exact arithmetic on natural numbers;
  `floatText` writes it with at least one digit behind the point, positionally between `1e-4` and
  `1e16`.
-/
import Scaffold.Number.Decimal

namespace Scaffold.Number

/-- A finite value `m * 2 ^ q` that is not negative; `narrowBelow` holds when the value below is
    half as far away as the value above. -/
structure Binary where
  m : Nat
  q : Int
  narrowBelow : Bool

/-- A decimal `digits * 10 ^ exp`. -/
structure Decimal where
  digits : Nat
  exp : Int
  deriving DecidableEq

namespace Binary

/-- The value that the bits of a finite float stand for, its sign apart. -/
def ofBits (b : UInt64) : Binary :=
  let unit := Nat.pow 2 52
  let e : Nat := (b.toNat / unit) % 2048
  let f : Nat := b.toNat % unit
  if e == 0 then ⟨f, -1074, false⟩ else ⟨unit + f, (e : Int) - 1075, f == 0 && e > 1⟩

/-- Compare `a * 10 ^ i` with `n * 2 ^ j`. -/
def compareScaled (a : Nat) (i : Int) (n : Nat) (j : Int) : Ordering :=
  compare (a * Nat.pow 10 i.toNat * Nat.pow 2 (-j).toNat)
    (n * Nat.pow 2 j.toNat * Nat.pow 10 (-i).toNat)

/-- Whether a decimal is among the reals that round to a value, ties going to the even one. -/
def readsBack (x : Binary) (d : Decimal) : Bool :=
  let lo := if x.narrowBelow then 4 * x.m - 1 else 4 * x.m - 2
  let hi := 4 * x.m + 2
  let closed := x.m % 2 == 0
  let cl := compareScaled d.digits d.exp lo (x.q - 2)
  let ch := compareScaled d.digits d.exp hi (x.q - 2)
  (cl == .gt || (closed && cl == .eq)) && (ch == .lt || (closed && ch == .eq))

/-- The least `k` near `guess` with `m * 2 ^ q < 10 ^ k`, searched in at most `fuel` steps. -/
def scaleFrom (x : Binary) : Nat → Int → Int
  | 0, k => k
  | fuel + 1, k =>
    if compareScaled 1 k x.m x.q != .gt then scaleFrom x fuel (k + 1)
    else if compareScaled 1 (k - 1) x.m x.q == .gt then scaleFrom x fuel (k - 1)
    else k

/-- The least `k` with `m * 2 ^ q < 10 ^ k`. -/
def scale (x : Binary) : Int :=
  scaleFrom x 16 (((Nat.log2 x.m : Int) + x.q) * 30103 / 100000 + 1)

/-- The number of units `10 ^ e` that fit into a value. -/
def units (x : Binary) (e : Int) : Nat :=
  (x.m * Nat.pow 2 x.q.toNat * Nat.pow 10 (-e).toNat) /
    (Nat.pow 2 (-x.q).toNat * Nat.pow 10 e.toNat)

/-- The decimal with `n` digits, or more, that reads back as a value, tried `fuel` times. -/
def search (x : Binary) (k : Int) : Nat → Nat → Decimal
  | 0, n => ⟨units x (k - n), k - n⟩
  | fuel + 1, n =>
    let e := k - n
    let below : Decimal := ⟨units x e, e⟩
    let above : Decimal := ⟨below.digits + 1, e⟩
    match x.readsBack below, x.readsBack above with
    | true, true =>
      match compareScaled (below.digits + above.digits) e (2 * x.m) x.q with
      | .gt => below
      | .lt => above
      | .eq => if below.digits % 2 == 0 then below else above
    | true, false => below
    | false, true => above
    | false, false => search x k fuel (n + 1)

/-- Move trailing zeros of the digits into the exponent. -/
def strip : Nat → Decimal → Decimal
  | 0, d => d
  | fuel + 1, d => if d.digits % 10 == 0 then strip fuel ⟨d.digits / 10, d.exp + 1⟩ else d

/-- The shortest decimal that reads back as a value other than zero. -/
def shortest (x : Binary) : Decimal :=
  strip 20 (search x x.scale 17 1)

end Binary

/-- A decimal with a point: positionally when its first digit stands between the fourth place behind
    the point and the sixteenth before it, with an exponent of two digits at least otherwise. -/
def decimalText (d : Decimal) : List Char :=
  let ds := digits d.digits
  let point : Int := ds.length + d.exp
  if -4 < point && point ≤ 16 then
    if point ≤ 0 then ['0', '.'] ++ List.replicate (-point).toNat '0' ++ ds
    else if ds.length ≤ point.toNat then
      ds ++ List.replicate (point.toNat - ds.length) '0' ++ ['.', '0']
    else ds.take point.toNat ++ ['.'] ++ ds.drop point.toNat
  else
    let e := point - 1
    let mantissa := match ds with
      | [] => []
      | [c] => [c]
      | c :: rest => c :: '.' :: rest
    let sign := if e < 0 then '-' else '+'
    let es := digits e.natAbs
    mantissa ++ ['e', sign] ++ List.replicate (2 - es.length) '0' ++ es

/-- A float in decimal notation. -/
def floatText (f : Float) : String :=
  if f.isNaN then "nan"
  else
    let sign := if f.toBits ≥ 0x8000000000000000 then ['-'] else []
    if f.isInf then String.ofList (sign ++ "inf".toList)
    else
      let x := Binary.ofBits (f.toBits % 0x8000000000000000)
      if x.m == 0 then String.ofList (sign ++ "0.0".toList)
      else String.ofList (sign ++ decimalText x.shortest)

/-- The float nearest to `m * 10 ^ e`; exponents beyond any float are cut short first. -/
def floatOfDecimal (m : Nat) (e : Int) : Float :=
  if m == 0 then 0.0
  else
    let size : Int := (digits m).length + e
    if size > 400 then 1.0 / 0.0
    else if size < -400 then 0.0
    else if e < 0 then Float.ofScientific m true e.natAbs
    else Float.ofScientific m false e.natAbs

end Scaffold.Number
