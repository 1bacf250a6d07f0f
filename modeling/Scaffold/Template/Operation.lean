/-
  Arithmetic, indices and slices of values.

  Of the functions that texts, lists and mappings have in Jinja2 those that are listed here are in
  the language: of lists only those that take items out of a lent list or turn it around, and of
  mappings none that changes them. Other members of a value are not there.
-/
import Scaffold.Template.Loan

namespace Scaffold.Template.Value

/-! ## Arithmetic -/

/-- A number as a value. -/
def ofNumeric : Numeric → Value
  | .whole n => whole n
  | .fraction x => fraction x

/-- A power of numbers with a fraction. -/
def powFloat (x y : Float) : Result Value :=
  if x == 0 && y < 0 then .error .divisionByZero
  else
    let r := Float.pow x y
    if r.isInf && !x.isInf && !y.isInf then .error .tooLarge else .ok (fraction r)

/-- An operation on two whole numbers. Division gives a fraction; the floor of a quotient and the
    rest belong together, the rest having the sign of the divisor. -/
def wholeArithmetic (op : Arithmetic) (a b : Int) : Result Value :=
  match op with
  | .add => .ok (whole (a + b))
  | .sub => .ok (whole (a - b))
  | .mul => .ok (whole (a * b))
  | .div => if b == 0 then .error .divisionByZero else .ok (fraction (.ofInt a / .ofInt b))
  | .floorDiv => if b == 0 then .error .divisionByZero else .ok (whole (Int.fdiv a b))
  | .mod => if b == 0 then .error .divisionByZero else .ok (whole (Int.fmod a b))
  | .pow => if b ≥ 0 then .ok (whole (Int.pow a b.toNat)) else powFloat (.ofInt a) (.ofInt b)

/-- The rest of a division with fractions, with the sign of the divisor. -/
def floatMod (a b : Float) : Float :=
  let r := a - b * (a / b).floor
  if r == 0 then (if b < 0 then -0.0 else 0.0) else r

/-- An operation on two numbers of which one has a fraction. -/
def floatArithmetic (op : Arithmetic) (a b : Float) : Result Value :=
  match op with
  | .add => .ok (fraction (a + b))
  | .sub => .ok (fraction (a - b))
  | .mul => .ok (fraction (a * b))
  | .div => if b == 0 then .error .divisionByZero else .ok (fraction (a / b))
  | .floorDiv => if b == 0 then .error .divisionByZero else .ok (fraction (a / b).floor)
  | .mod => if b == 0 then .error .divisionByZero else .ok (fraction (floatMod a b))
  | .pow => powFloat a b

/-- Items one after the other, `n` times. -/
def repeated {α : Type} (n : Int) (xs : List α) : List α :=
  (List.replicate n.toNat xs).flatten

/-- An operation on texts or sequences: they can be put together and repeated. -/
def sequenceArithmetic (op : Arithmetic) (a b : Value) : Result Value :=
  match op, a, b with
  | .add, text s, text t => .ok (text (s ++ t))
  | .add, list s, list t => .ok (list (s ++ t))
  | .add, tuple s, tuple t => .ok (tuple (s ++ t))
  | .mul, text s, v | .mul, v, text s =>
    match v.whole? with
    | some n => .ok (text (repeated n s))
    | Option.none => .error .wrongType
  | .mul, list s, v | .mul, v, list s =>
    match v.whole? with
    | some n => .ok (list (repeated n s))
    | Option.none => .error .wrongType
  | .mul, tuple s, v | .mul, v, tuple s =>
    match v.whole? with
    | some n => .ok (tuple (repeated n s))
    | Option.none => .error .wrongType
  | _, _, _ => .error .wrongType

/-- An operation on two values. -/
def arithmetic (op : Arithmetic) (a b : Value) : Result Value := do
  let a ← a.useFully
  let b ← b.useFully
  match a.numeric?, b.numeric? with
  | some (.whole m), some (.whole n) => wholeArithmetic op m n
  | some x, some y => floatArithmetic op x.toFloat y.toFloat
  | _, _ => sequenceArithmetic op a b

/-- A number with the other sign. -/
def negate (v : Value) : Result Value := do
  match (← v.useFully).numeric? with
  | some (.whole n) => .ok (whole (-n))
  | some (.fraction x) => .ok (fraction (-x))
  | Option.none => .error .wrongType

/-- A number with its sign. -/
def affirm (v : Value) : Result Value := do
  match (← v.useFully).numeric? with
  | some n => .ok (ofNumeric n)
  | Option.none => .error .wrongType

/-- Whether a comparison holds. -/
def compare (c : Comparison) (a b : Value) : Result Bool :=
  match c with
  | .eq => equal a b
  | .ne => (equal a b).map not
  | .lt => precedes a b
  | .gt => precedes b a
  | .le => do if ← precedes a b then return true else equal a b
  | .ge => do if ← precedes b a then return true else equal a b
  | .isIn => isIn a b
  | .notIn => (isIn a b).map not

/-! ## Members and indices -/

/-- The functions that texts have. -/
def textMethods : List String :=
  ["upper", "lower", "strip", "lstrip", "rstrip", "replace", "join", "split", "startswith",
   "endswith", "capitalize", "count", "find"]

/-- The functions that mappings have. -/
def mappingMethods : List String := ["items", "keys", "values", "get"]

/-- The functions that lent lists have. -/
def listMethods : List String := ["pop", "clear", "reverse"]

/-- Whether a value has a function of a name. -/
def hasMethod (name : String) : Value → Bool
  | text _ => textMethods.contains name
  | lent _ _ => listMethods.contains name
  | mapping _ => mappingMethods.contains name
  | loop _ _ => name == "cycle"
  | _ => false

/-- Something that a loop tells about its current item. -/
def loopMember? (name : String) (position : Nat) (items : List Value) : Option Value :=
  match name with
  | "index" => some (whole (position + 1))
  | "index0" => some (whole position)
  | "revindex" => some (whole (items.length - position))
  | "revindex0" => some (whole (items.length - position - 1))
  | "first" => some (bool (position == 0))
  | "last" => some (bool (position + 1 == items.length))
  | "length" => some (whole items.length)
  | "depth" => some (whole 1)
  | "depth0" => some (whole 0)
  | "previtem" =>
    some (if position == 0 then missing "there is no previous item"
      else (items[position - 1]?).getD none)
  | "nextitem" => some ((items[position + 1]?).getD (missing "there is no next item"))
  | _ => Option.none

/-- The member of a value with a name, apart from the entries of a mapping. -/
def member? (name : String) (v : Value) : Option Value :=
  if v.hasMethod name then some (method v name)
  else
    match v with
    | loop position items => loopMember? name position items
    | blocks => some (block name 0)
    | _ => Option.none

/-- The text of a message; a quoted text has no surrogates. -/
def messageText (t : Text) : String := t.toString?.getD ""

/-- What is said when a value has no member of a name. -/
def noMember (v : Value) (name : Text) : Value :=
  missing (Text.quotedString v.kindText ++ " has no attribute " ++ messageText (Text.quoted name))

/-- What is said when a value has no element at an index. -/
def noElement (v index : Value) : Value :=
  missing (v.kindText ++ " has no element " ++ messageText index.quoted)

/-- The item at a position, which is counted from the end when it is negative. -/
def itemAt? {α : Type} (xs : List α) (i : Int) : Option α :=
  let i := if i < 0 then i + xs.length else i
  if i < 0 then Option.none else xs[i.toNat]?

/-- The element of a value at an index, by position or by key. -/
def element? (v index : Value) : Option Value :=
  match v with
  | mapping entries => if index.isKey then lookup? index entries else Option.none
  | text t => index.whole?.bind fun i => (itemAt? t i).map fun p => text [p]
  | list items | lent _ items | tuple items => index.whole?.bind fun i => itemAt? items i
  | range start stop step => index.whole?.bind fun i => itemAt? (rangeItems start stop step) i
  | _ => Option.none

/-- The member of a value with a name: a function or property of it first, then an entry. -/
def getMember (name : String) (v : Value) : Result Value := do
  let v ← v.useFully
  match member? name v with
  | some w => .ok w
  | Option.none => .ok ((element? v (ofString name)).getD (noMember v (Text.ofString name)))

/-- The element of a value at an index: an entry first, then a function or property of it. -/
def getElement (l : Loans) (v index : Value) : Result Value := do
  let v ← v.useFully
  match v, index with
  | mapping _, missing m => .error (.undefined m)
  | _, _ =>
    match element? (v.look l) index with
    | some w => .ok w
    | Option.none =>
      match index with
      | text name => .ok (((name.toString?).bind fun s => member? s v).getD (noMember v name))
      | _ => .ok (noElement v index)

/-! ## Slices -/

/-- A bound of a slice. -/
def bound : Option Value → Result (Option Int)
  | Option.none | some none => .ok Option.none
  | some v => do
    match (← v.use).whole? with
    | some n => .ok (some n)
    | Option.none => .error .wrongType

/-- The positions of a slice of a sequence. A negative bound is counted from the end, and bounds
    outside of the sequence are moved to its ends. -/
def slicePositions (length : Nat) (start stop : Option Int) (step : Int) : List Nat :=
  let n : Int := length
  let clamp (low high i : Int) : Int :=
    let i := if i < 0 then i + n else i
    if i < low then low else if i > high then high else i
  if step > 0 then
    let start := (start.map (clamp 0 n)).getD 0
    let stop := (stop.map (clamp 0 n)).getD n
    (List.range (rangeLength start stop step)).map fun (i : Nat) => (start + step * i).toNat
  else
    let start := (start.map (clamp (-1) (n - 1))).getD (n - 1)
    let stop := (stop.map (clamp (-1) (n - 1))).getD (-1)
    (List.range (rangeLength start stop step)).map fun (i : Nat) => (start + step * i).toNat

/-- The items at the positions of a slice. -/
def sliceOf {α : Type} (start stop step : Option Int) (xs : List α) : Result (List α) :=
  match step with
  | some 0 => .error (.wrongValue "slice step cannot be zero")
  | _ => .ok ((slicePositions xs.length start stop (step.getD 1)).filterMap fun i => xs[i]?)

/-- A slice of a value. -/
def slice (v : Value) (start stop step : Option Value) : Result Value := do
  let v ← v.useFully
  match v with
  | text t => do
    return text (← sliceOf (← bound start) (← bound stop) (← bound step) t)
  | list items => do
    return list (← sliceOf (← bound start) (← bound stop) (← bound step) items)
  | tuple items => do
    return tuple (← sliceOf (← bound start) (← bound stop) (← bound step) items)
  | range first last by_ => do
    let items := rangeItems first last by_
    return list (← sliceOf (← bound start) (← bound stop) (← bound step) items)
  | _ => .error .wrongType

end Scaffold.Template.Value
