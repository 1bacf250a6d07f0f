/-
  The values that templates compute with.

  `Value.display` is the text of a value when it is printed, `Value.quoted` its text inside of
  another value. A value that is not there may be tested and passed on, but every use of it fails.

  The text of a function, and of items that can only be run through, tells where these are in
  memory. No run fixes that, so they have no text here.

  The lists that a template is given from outside are lent to it: a template that takes items out
  of them takes them out for everyone who has the list (`Template.Loan`). Lists that a template
  makes itself, and mappings, do not change.
-/
import Scaffold.Failure.Basic
import Scaffold.Template.Form
import Scaffold.Text.Order

namespace Scaffold.Template

/-- The three views of a mapping, and items that can only be run through. -/
inductive View where
  | keys
  | values
  | items
  | once
  deriving DecidableEq

/-- The place of a list among all that is given to a template. -/
abbrev Spot := List Nat

/-- A value. -/
inductive Value where
  | none
  | bool (b : Bool)
  | whole (n : Int)
  | fraction (x : Float)
  | text (t : Text)
  | list (items : List Value)
  /-- A list that is lent, with the items that it had at first. -/
  | lent (spot : Spot) (items : List Value)
  | tuple (items : List Value)
  /-- Entries keep the order in which their keys were first given. -/
  | mapping (entries : List (Value × Value))
  | view (kind : View) (items : List Value)
  | range (start stop step : Int)
  /-- A value that is not there. -/
  | missing (message : String)
  /-- A value that is not there and counts as empty text. -/
  | blank (message : String)
  /-- The state of a loop: the position of its current item among all items. -/
  | loop (position : Nat) (items : List Value)
  /-- A named piece of template with the names it sees. -/
  | routine (name : String) (params : List (String × Option Expr)) (body : List Stmt)
      (scopes : List (List (String × Value)))
  /-- A function that belongs to a value. -/
  | method (receiver : Value) (name : String)
  /-- A function that every template has. -/
  | builtin (name : String)
  /-- The blocks of the template. -/
  | blocks
  /-- A block as a function; `level` counts how often it was replaced. -/
  | block (name : String) (level : Nat)
  deriving Inhabited

/-- The values of names. -/
abbrev Scope := List (String × Value)

/-- The result of a computation in a template. -/
abbrev Result := Except TemplateFault

namespace Scope

/-- The value of a name. -/
def get? (s : Scope) (name : String) : Option Value :=
  (s.find? (·.1 == name)).map (·.2)

/-- Give a name a value; a name that has one keeps its place. -/
def put (name : String) (v : Value) : Scope → Scope
  | [] => [(name, v)]
  | (k, w) :: rest => if k == name then (k, v) :: rest else (k, w) :: put name v rest

/-- Give the names of a scope their values from it. -/
def update (s : Scope) (others : Scope) : Scope :=
  others.foldl (fun s e => put e.1 e.2 s) s

end Scope

namespace Value

/-! ## From JSON -/

/-- A string as a value. -/
def ofString (s : String) : Value := text (Text.ofString s)

mutual

/-- The value of a JSON value at a place. -/
def ofJson (spot : Spot) : Json → Value
  | .null => none
  | .bool b => bool b
  | .int n => whole n
  | .float x => fraction x
  | .str s => ofString s
  | .arr items => lent spot (ofItems spot 0 items)
  | .obj members => mapping (ofMembers spot 0 members)

/-- The values of JSON values, counted from a number. -/
def ofItems (spot : Spot) (n : Nat) : List Json → List Value
  | [] => []
  | v :: rest => ofJson (n :: spot) v :: ofItems spot (n + 1) rest

/-- The entries of JSON members, counted from a number. -/
def ofMembers (spot : Spot) (n : Nat) : List (String × Json) → List (Value × Value)
  | [] => []
  | (k, v) :: rest => (ofString k, ofJson (n :: spot) v) :: ofMembers spot (n + 1) rest

end

/-! ## Numbers -/

/-- A number, whole or with a fraction. -/
inductive Numeric where
  | whole (n : Int)
  | fraction (x : Float)

/-- The number that a value is; truth values count as `1` and `0`. -/
def numeric? : Value → Option Numeric
  | bool b => some (.whole (if b then 1 else 0))
  | whole n => some (.whole n)
  | fraction x => some (.fraction x)
  | _ => Option.none

/-- The whole number that a value is. -/
def whole? (v : Value) : Option Int :=
  match v.numeric? with
  | some (.whole n) => some n
  | _ => Option.none

/-- A whole number with a fraction part of zero. -/
def Numeric.toFloat : Numeric → Float
  | whole n => Float.ofInt n
  | fraction x => x

/-- Whether two numbers are equal. -/
def Numeric.equal : Numeric → Numeric → Bool
  | whole a, whole b => a == b
  | a, b => a.toFloat == b.toFloat

/-- Whether a number is below another. -/
def Numeric.below : Numeric → Numeric → Bool
  | whole a, whole b => a < b
  | a, b => a.toFloat < b.toFloat

/-! ## Kinds -/

/-- The kind of a value in words. -/
def kindText : Value → String
  | none => "None"
  | bool _ => "bool object"
  | whole _ => "int object"
  | fraction _ => "float object"
  | text _ => "str object"
  | list _ | lent _ _ => "list object"
  | tuple _ => "tuple object"
  | mapping _ => "dict object"
  | view .keys _ => "dict_keys object"
  | view .values _ => "dict_values object"
  | view .items _ => "dict_items object"
  | view .once _ => "iterator object"
  | range _ _ _ => "range object"
  | missing _ | blank _ => "undefined object"
  | loop _ _ => "loop object"
  | routine _ _ _ _ => "macro object"
  | method _ _ => "method object"
  | builtin _ => "function object"
  | blocks => "blocks object"
  | block _ _ => "block object"

/-- Whether a value is not there. -/
def isMissing : Value → Bool
  | missing _ | blank _ => true
  | _ => false

/-- A value that is there. -/
def use : Value → Result Value
  | missing m => .error (.undefined m)
  | v => .ok v

/-- A value that is there and is not empty text either. -/
def useFully : Value → Result Value
  | missing m | blank m => .error (.undefined m)
  | v => .ok v

/-! ## Text -/

/-- The text of ASCII characters. -/
def ascii (s : String) : Text := Text.ofString s

mutual

/-- The text of a value inside of another value. -/
def quoted : Value → Text
  | none => ascii "None"
  | bool b => ascii (if b then "True" else "False")
  | whole n => (Number.ofInt n).map .scalar
  | fraction x => ascii (Number.floatText x)
  | text t => Text.quoted t
  | list items | lent _ items => ascii "[" ++ quotedItems items ++ ascii "]"
  | tuple [v] => ascii "(" ++ quoted v ++ ascii ",)"
  | tuple items => ascii "(" ++ quotedItems items ++ ascii ")"
  | mapping entries => ascii "\x7b" ++ quotedEntries entries ++ ascii "\x7d"
  | view .keys items => ascii "dict_keys([" ++ quotedItems items ++ ascii "])"
  | view .values items => ascii "dict_values([" ++ quotedItems items ++ ascii "])"
  | view .items items => ascii "dict_items([" ++ quotedItems items ++ ascii "])"
  | view .once _ => ascii "<iterator>"
  | range start stop step =>
    ascii "range(" ++ (Number.ofInt start).map .scalar ++ ascii ", " ++
      (Number.ofInt stop).map .scalar ++
      (if step == 1 then [] else ascii ", " ++ (Number.ofInt step).map .scalar) ++ ascii ")"
  | missing _ | blank _ => ascii "Undefined"
  | loop position items =>
    ascii "<LoopContext " ++ (Number.digits (position + 1)).map .scalar ++ ascii "/" ++
      (Number.digits items.length).map .scalar ++ ascii ">"
  | routine name _ _ _ => ascii "<Macro " ++ Text.quoted (ascii name) ++ ascii ">"
  | method _ name => ascii "<method " ++ Text.quoted (ascii name) ++ ascii ">"
  | builtin name => ascii "<function " ++ Text.quoted (ascii name) ++ ascii ">"
  | blocks => ascii "<blocks>"
  | block name _ => ascii "<block " ++ Text.quoted (ascii name) ++ ascii ">"

/-- The texts of items with commas between them. -/
def quotedItems : List Value → Text
  | [] => []
  | [v] => quoted v
  | v :: w :: rest => quoted v ++ ascii ", " ++ quotedItems (w :: rest)

/-- The texts of entries with commas between them. -/
def quotedEntries : List (Value × Value) → Text
  | [] => []
  | [(k, v)] => quoted k ++ ascii ": " ++ quoted v
  | (k, v) :: e :: rest =>
    quoted k ++ ascii ": " ++ quoted v ++ ascii ", " ++ quotedEntries (e :: rest)

end

mutual

/-- Whether a value has a text: nothing in it has one that tells where it is in memory. -/
def hasText : Value → Bool
  | method _ _ | builtin _ | blocks | block _ _ | view .once _ => false
  | list items | lent _ items | tuple items | view _ items => haveText items
  | mapping entries => entriesHaveText entries
  | _ => true

/-- Whether all items have a text. -/
def haveText : List Value → Bool
  | [] => true
  | v :: rest => hasText v && haveText rest

/-- Whether all entries have a text. -/
def entriesHaveText : List (Value × Value) → Bool
  | [] => true
  | (k, v) :: rest => hasText k && hasText v && entriesHaveText rest

end

/-- The message for a whole number that has too many digits to be written. -/
def tooManyDigits : String :=
  "Exceeds the limit (4300 digits) for integer string conversion; use " ++
    "sys.set_int_max_str_digits() to increase the limit"

/-- The text of a value when it is printed. -/
def display : Value → Result Text
  | text t => .ok t
  | missing m => .error (.undefined m)
  | blank _ => .ok []
  | whole n =>
    if (Number.digits n.natAbs).length > Number.maxDigits then .error (.wrongValue tooManyDigits)
    else .ok ((Number.ofInt n).map .scalar)
  | v => if v.hasText then .ok v.quoted else .error .wrongType

/-! ## Truth, size and items -/

/-- The number of steps of a range. -/
def rangeLength (start stop step : Int) : Nat :=
  if step > 0 then ((stop - start + step - 1) / step).toNat
  else if step < 0 then ((start - stop - step - 1) / (-step)).toNat
  else 0

/-- The numbers of a range. -/
def rangeItems (start stop step : Int) : List Value :=
  (List.range (rangeLength start stop step)).map fun (i : Nat) => whole (start + step * i)

/-- Whether a value counts as true. -/
def truth : Value → Result Bool
  | none => .ok false
  | bool b => .ok b
  | whole n => .ok (n != 0)
  | fraction x => .ok (x != 0)
  | text t => .ok !t.isEmpty
  | view .once _ => .ok true
  | list items | lent _ items | tuple items | view _ items => .ok !items.isEmpty
  | mapping entries => .ok !entries.isEmpty
  | range start stop step => .ok (rangeLength start stop step != 0)
  | missing m => .error (.undefined m)
  | blank _ => .ok false
  | loop _ _ | routine _ _ _ _ | method _ _ | builtin _ | blocks | block _ _ => .ok true

/-- What a value runs through: its items, its characters or its keys. -/
def items : Value → Result (List Value)
  | text t => .ok (t.map fun p => text [p])
  | list items | lent _ items | tuple items | view _ items => .ok items
  | mapping entries => .ok (entries.map (·.1))
  | range start stop step => .ok (rangeItems start stop step)
  | missing m => .error (.undefined m)
  | blank _ => .ok []
  | loop position items => .ok (items.drop (position + 1))
  | none | bool _ | whole _ | fraction _ | routine _ _ _ _ | method _ _ | builtin _ | blocks
  | block _ _ => .error .wrongType

/-- The number of items, characters or entries of a value. -/
def size : Value → Result Nat
  | text t => .ok t.length
  | view .once _ => .error .wrongType
  | list items | lent _ items | tuple items | view _ items => .ok items.length
  | mapping entries => .ok entries.length
  | range start stop step => .ok (rangeLength start stop step)
  | missing m => .error (.undefined m)
  | blank _ => .ok 0
  | loop _ items => .ok items.length
  | none | bool _ | whole _ | fraction _ | routine _ _ _ _ | method _ _ | builtin _ | blocks
  | block _ _ => .error .wrongType

/-! ## Equality -/

mutual

/-- Whether two values are the same key of a mapping. -/
def sameKey : Value → Value → Bool
  | none, none => true
  | text a, text b => a == b
  | tuple as, tuple bs => sameKeys as bs
  | a, b =>
    match a.numeric?, b.numeric? with
    | some x, some y => x.equal y
    | _, _ => false

/-- Whether the parts of two tuples are the same keys. -/
def sameKeys : List Value → List Value → Bool
  | [], [] => true
  | a :: as, b :: bs => sameKey a b && sameKeys as bs
  | _, _ => false

end

/-- The value of a key. -/
def lookup? (key : Value) (entries : List (Value × Value)) : Option Value :=
  (entries.find? fun e => e.1.sameKey key).map (·.2)

/-- Give a key a value; a key that has one keeps its place. -/
def putEntry (key v : Value) : List (Value × Value) → List (Value × Value)
  | [] => [(key, v)]
  | (k, w) :: rest => if k.sameKey key then (k, v) :: rest else (k, w) :: putEntry key v rest

mutual

/-- Whether a value may be a key of a mapping. -/
def isKey : Value → Bool
  | list _ | lent _ _ | mapping _ | view _ _ | missing _ => false
  | tuple items => areKeys items
  | _ => true

/-- Whether values may be keys of a mapping. -/
def areKeys : List Value → Bool
  | [] => true
  | v :: rest => isKey v && areKeys rest

end

mutual

/-- Whether two values are equal. -/
def equal : Value → Value → Result Bool
  | missing m, _ => .error (.undefined m)
  | blank _, b =>
    match b with
    | missing m => .error (.undefined m)
    | blank _ => .ok true
    | _ => .ok false
  | list as, list bs | tuple as, tuple bs => equalItems as bs
  | mapping as, mapping bs =>
    if as.length == bs.length then equalEntries as bs else .ok false
  | text a, text b => .ok (a == b)
  | none, none => .ok true
  | a, b =>
    match b with
    | missing m => .error (.undefined m)
    | _ =>
      match a.numeric?, b.numeric? with
      | some x, some y => .ok (x.equal y)
      | _, _ => .ok false

/-- Whether items are equal one by one. -/
def equalItems : List Value → List Value → Result Bool
  | [], [] => .ok true
  | a :: as, b :: bs =>
    match equal a b with
    | .ok true => equalItems as bs
    | r => r
  | _, _ => .ok false

/-- Whether every key of the first entries has an equal value in the second. -/
def equalEntries : List (Value × Value) → List (Value × Value) → Result Bool
  | [], _ => .ok true
  | (k, v) :: rest, bs =>
    match lookup? k bs with
    | Option.none => .ok false
    | some w =>
      match equal v w with
      | .ok true => equalEntries rest bs
      | r => r

end

/-- Whether an item is among items. -/
def among (v : Value) : List Value → Result Bool
  | [] => .ok false
  | w :: rest =>
    match equal v w with
    | .ok false => among v rest
    | r => r

/-! ## Order and membership -/

mutual

/-- Whether a value comes before another; only values of like kinds have an order. -/
def precedes : Value → Value → Result Bool
  | missing m, _ => .error (.undefined m)
  | blank m, _ => .error (.undefined m)
  | text a, text b => .ok (Text.precedesBy CodePoint.toNat a b)
  | list as, list bs | tuple as, tuple bs => precedesItems as bs
  | a, b =>
    match b with
    | missing m | blank m => .error (.undefined m)
    | _ =>
      match a.numeric?, b.numeric? with
      | some x, some y => .ok (x.below y)
      | _, _ => .error .wrongType

/-- Whether items come before others, the first unequal pair deciding. -/
def precedesItems : List Value → List Value → Result Bool
  | _, [] => .ok false
  | [], _ :: _ => .ok true
  | a :: as, b :: bs =>
    match equal a b with
    | .ok true => precedesItems as bs
    | .ok false => precedes a b
    | .error f => .error f

end

/-- Whether a value is in another: an item of it, a key of it, or a part of its text. -/
def isIn (v container : Value) : Result Bool :=
  match container with
  | text t =>
    match v with
    | text sub => .ok (Text.occursIn sub t)
    | _ => .error .wrongType
  | mapping entries =>
    match v with
    | missing m => .error (.undefined m)
    | _ => if v.isKey then .ok (lookup? v entries).isSome else .error .wrongType
  | _ => do among v (← container.items)

end Value

/-- The values of the members of a JSON object as names. -/
def Scope.ofMembers (members : List (String × Json)) : Scope :=
  members.zipIdx.map fun e => (e.1.1, Value.ofJson [e.2] e.1.2)

end Scaffold.Template
