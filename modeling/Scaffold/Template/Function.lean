/-
  The filters, tests and functions of the template language.

  Arguments are given by position or by name; `Given.take` puts them into the order of the
  parameters and refuses what does not fit.

  Of the filters and tests of Jinja2 those listed as `filters` and `tests` are in the language, and
  of the functions that every template has `range` and `dict`; the others can be named but not
  called. A filter computes from nothing but its arguments, except `random`, which draws
  (`Template.Desk`).
-/
import Scaffold.Naming.Words
import Scaffold.Template.Operation
import Scaffold.Text.Casing

namespace Scaffold.Template

/-- The arguments of a call. -/
structure Given where
  args : List Value
  named : List (String × Value)

namespace Given

/-- The value of each parameter, absent where nothing is given for it. Too many arguments, unknown
    names, and two values for one parameter are refused, and so is a missing value for one of the
    first `required` parameters. -/
def take (g : Given) (params : List String) (required : Nat) : Result (List (Option Value)) :=
  let positional := g.args.length
  if positional > params.length then .error .wrongType
  else if g.named.any fun e => !(params.drop positional).contains e.1 then .error .wrongType
  else
    let rest := (params.drop positional).map fun p => (g.named.find? (·.1 == p)).map (·.2)
    let values := g.args.map some ++ rest
    if (values.take required).any Option.isNone then .error .wrongType else .ok values

/-- The value of each of the parameters, all of which have to be given. -/
def exactly (g : Given) (params : List String) : Result (List Value) := do
  return (← g.take params params.length).filterMap id

/-- The arguments with what is left of the lists in them. -/
def lookThrough (l : Loans) (g : Given) : Given :=
  ⟨g.args.map (·.lookThrough l), g.named.map fun e => (e.1, e.2.lookThrough l)⟩

end Given

namespace Value

/-! ## Texts -/

/-- The text of a value that is a text. -/
def theText : Value → Result Text
  | text t => .ok t
  | _ => .error .wrongType

/-- Whether a code point is blank. -/
def blankPoint (p : CodePoint) : Bool := p.satisfies Text.isBlank false

/-- What is to be removed from the ends of a text. -/
def stripped : Option Value → Result (CodePoint → Bool)
  | Option.none | some none => .ok blankPoint
  | some (text t) => .ok t.contains
  | some _ => .error .wrongType

/-- A name in another case, as text. -/
def recase (form : List Char → List Char) (v : Value) : Result Value := do
  let t ← v.theText
  match t.chars? with
  | some cs => .ok (text ((form cs).map .scalar))
  | Option.none =>
    .ok (text ((form (t.map fun p => p.char?.getD ' ')).map .scalar))

/-- Whether a new word starts behind a code point. -/
def startsWord (p : CodePoint) : Bool :=
  p.satisfies (fun c => Text.isBlank c || "-(\x7b[<".toList.contains c) false

/-- A reversed word with its first character in upper form and the others in lower form. -/
def titleWord (word : Text) : Text :=
  match word.reverse with
  | [] => []
  | p :: rest => Text.upper [p] ++ Text.lower rest

/-- A text with every word capitalised; `word` holds the reversed start of the current one. -/
def titled (word : Text) : Text → Text
  | [] => titleWord word
  | p :: rest =>
    if startsWord p then titleWord word ++ p :: titled [] rest else titled (p :: word) rest

/-- The number of times that a run occurs in a text, without overlaps. -/
def occurrences (sub : Text) (skip : Nat) : Text → Nat
  | [] => if sub.isEmpty then 1 else 0
  | p :: rest =>
    match skip with
    | k + 1 => occurrences sub k rest
    | 0 =>
      if Text.startsWithList sub (p :: rest) then 1 + occurrences sub (sub.length - 1) rest
      else occurrences sub 0 rest

/-- The position of the first occurrence of a run, `-1` if there is none. -/
def position (sub : Text) (at_ : Int) : Text → Int
  | [] => if sub.isEmpty then at_ else -1
  | p :: rest => if Text.startsWithList sub (p :: rest) then at_ else position sub (at_ + 1) rest

/-- The pieces of a text between occurrences of a run; `piece` holds the reversed start of the first
    one, and `skip` code points belong to an occurrence. -/
def splitAt (sep : Text) (piece : Text) (skip : Nat) : Text → List Text
  | [] => [piece.reverse]
  | p :: rest =>
    match skip with
    | k + 1 => splitAt sep piece k rest
    | 0 =>
      if Text.startsWithList sep (p :: rest) then
        piece.reverse :: splitAt sep [] (sep.length - 1) rest
      else splitAt sep (p :: piece) 0 rest

/-- The pieces of a text between blanks. -/
def splitBlanks (piece : Text) : Text → List Text
  | [] => if piece.isEmpty then [] else [piece.reverse]
  | p :: rest =>
    if blankPoint p then
      if piece.isEmpty then splitBlanks [] rest else piece.reverse :: splitBlanks [] rest
    else splitBlanks (p :: piece) rest

/-- How often a text may be replaced; a negative number sets no limit. -/
def limit : Option Value → Result (Option Nat)
  | Option.none => .ok Option.none
  | some v =>
    match v.whole? with
    | some n => .ok (if n < 0 then Option.none else some n.toNat)
    | Option.none => .error .wrongType

/-! ## Functions of values -/

/-- A function of a text. -/
def callTextMethod (t : Text) (name : String) (g : Given) : Result Value :=
  match name with
  | "upper" => do let _ ← g.exactly []; return text (Text.upper t)
  | "lower" => do let _ ← g.exactly []; return text (Text.lower t)
  | "capitalize" => do let _ ← g.exactly []; return text (Text.capitalize t)
  | "strip" => do
    let given ← g.take ["chars"] 0
    return text (Text.trimBy (← stripped given.head?.join) t)
  | "lstrip" => do
    let given ← g.take ["chars"] 0
    return text (t.dropWhile (← stripped given.head?.join))
  | "rstrip" => do
    let given ← g.take ["chars"] 0
    return text (t.reverse.dropWhile (← stripped given.head?.join)).reverse
  | "replace" => do
    match ← g.take ["old", "new", "count"] 2 with
    | [some old, some new, count] =>
      return text (Text.replace (← old.theText) (← new.theText) (← limit count) t)
    | _ => .error .wrongType
  | "join" => do
    match ← g.exactly ["parts"] with
    | [parts] => return text (Text.joinWith t (← (← parts.items).mapM theText))
    | _ => .error .wrongType
  | "split" => do
    match ← g.take ["sep"] 0 with
    | [some (text [])] => .error (.wrongValue "empty separator")
    | [some (text sep)] => return list ((splitAt sep [] 0 t).map text)
    | [Option.none] | [some none] => return list ((splitBlanks [] t).map text)
    | _ => .error .wrongType
  | "startswith" => do
    match ← g.exactly ["part"] with
    | [text part] => return bool (Text.startsWithList part t)
    | _ => .error .wrongType
  | "endswith" => do
    match ← g.exactly ["part"] with
    | [text part] => return bool (Text.startsWithList part.reverse t.reverse)
    | _ => .error .wrongType
  | "count" => do
    match ← g.exactly ["part"] with
    | [text part] => return whole (occurrences part 0 t)
    | _ => .error .wrongType
  | "find" => do
    match ← g.exactly ["part"] with
    | [text part] => return whole (position part 0 t)
    | _ => .error .wrongType
  | _ => .error .wrongType

/-- A function of a mapping. -/
def callMappingMethod (entries : List (Value × Value)) (name : String) (g : Given) : Result Value :=
  match name with
  | "items" => do let _ ← g.exactly []; return view .items (entries.map fun e => tuple [e.1, e.2])
  | "keys" => do let _ ← g.exactly []; return view .keys (entries.map (·.1))
  | "values" => do let _ ← g.exactly []; return view .values (entries.map (·.2))
  | "get" => do
    match ← g.take ["key", "default"] 1 with
    | [some (missing m), _] => .error (.undefined m)
    | [some key, other] =>
      if key.isKey then return (lookup? key entries).getD (other.getD none) else .error .wrongType
    | _ => .error .wrongType
  | _ => .error .wrongType

/-- The position that an index means in a sequence of some length. -/
def place? (count : Nat) (i : Int) : Option Nat :=
  let i := if i < 0 then i + count else i
  if 0 ≤ i ∧ i < count then some i.toNat else Option.none

/-- A function of a lent list, given the positions of what is left of it: the position of what is
    taken out, if anything is, and of what is left then. -/
def callListMethod (left : Positions) (name : String) (g : Given) :
    Result (Option Nat × Positions) :=
  match name with
  | "pop" =>
    if !g.named.isEmpty then .error .wrongType
    else
      match (match g.args with
        | [] => some (-1)
        | [v] => v.whole?
        | _ => Option.none) with
      | Option.none => .error .wrongType
      | some i =>
        match place? left.1.length i with
        | some k => .ok (left.1[k]?, left.erase k)
        | Option.none => .error .wrongIndex
  | "clear" => do let _ ← g.exactly []; return (Option.none, .none)
  | "reverse" => do let _ ← g.exactly []; return (Option.none, left.reverse)
  | _ => .error .wrongType

/-- A function of the state of a loop: one argument after the other, again and again. -/
def callLoopMethod (position : Nat) (name : String) (g : Given) : Result Value :=
  match name, g.args with
  | "cycle", [] => .error .wrongType
  | "cycle", args => .ok ((args[position % args.length]?).getD none)
  | _, _ => .error .wrongType

/-- A function that belongs to a value. -/
def callMethod (receiver : Value) (name : String) (g : Given) : Result Value :=
  match receiver with
  | text t => if g.named.isEmpty then callTextMethod t name g else .error .wrongType
  | mapping entries => callMappingMethod entries name g
  | loop position _ => callLoopMethod position name g
  | _ => .error .wrongType

/-- The functions that every template has. -/
def builtins : List String := ["range", "dict", "lipsum", "cycler", "joiner", "namespace"]

/-- A function that every template has. -/
def callBuiltin (name : String) (g : Given) : Result Value :=
  match name with
  | "range" =>
    if g.named.isEmpty then do
      let bounds ← g.args.mapM fun v => do
        match (← v.use).whole? with
        | some n => pure n
        | Option.none => .error .wrongType
      match bounds with
      | [stop] => .ok (range 0 stop 1)
      | [start, stop] => .ok (range start stop 1)
      | [start, stop, step] =>
        if step == 0 then .error (.wrongValue "range() arg 3 must not be zero")
        else .ok (range start stop step)
      | _ => .error .wrongType
    else .error .wrongType
  | "dict" =>
    let named := g.named.map fun e => (ofString e.1, e.2)
    match g.args with
    | [] => .ok (mapping named)
    | [mapping entries] => .ok (mapping (named.foldl (fun m e => putEntry e.1 e.2 m) entries))
    | _ => .error .wrongType
  | _ => .error .wrongType

/-! ## Filters -/

/-- The names of the filters. -/
def filters : List String :=
  ["upper", "lower", "capitalize", "title", "trim", "replace", "length", "count", "join", "first",
   "last", "default", "d", "string", "list", "reverse", "abs", "items", "safe", "random",
   "snake_case", "pascal_case", "camel_case"]

section

variable (l : Loans)

/-- A filter on the text of a value. -/
def onText (form : Text → Text) (v : Value) (g : Given) : Result Value := do
  let _ ← g.exactly []
  return text (form (← v.shown l))

/-- The way to a part of a value: keys and positions with points between them, or one key. -/
def steps : Option Value → List Value
  | Option.none | some none => []
  | some (text path) =>
    (splitAt (ascii ".") [] 0 path).map fun step =>
      let cs := (messageText step).toList
      if cs.all Char.isDigit then ((Number.readInt cs).map whole).getD (text step) else text step
  | some key => [key]

/-- The texts of items, or of parts of them, with a separator between them. -/
def joined (v : Value) (g : Given) : Result Value := do
  match ← g.take ["d", "attribute"] 0 with
  | [sep, part] =>
    let items ← (← (v.look l).items).mapM fun i => (steps part).foldlM (getElement l) i
    let sep ← (sep.getD (text [])).shown l
    return text (Text.joinWith sep (← items.mapM (shown l)))
  | _ => .error .wrongType

/-- The value, or another one if it is not there or, when that is asked for, counts as false. -/
def defaulted (v : Value) (g : Given) : Result Value := do
  match ← g.take ["default_value", "boolean"] 0 with
  | [other, boolean] =>
    let other := other.getD (text [])
    if v.isMissing then return other
    else if ← ((boolean.getD (bool false)).look l).truth then
      if ← (v.look l).truth then return v else return other
    else return v
  | _ => .error .wrongType

/-- The items of a value from the last to the first; what can only be run through has no last
    item. -/
def reversedItems (v : Value) : Result (List Value) :=
  match v with
  | view .once _ | loop _ _ => .error .wrongType
  | _ => do return (← v.items).reverse

/-- The value from its end to its start: a text, or items that can only be run through. -/
def reversed (v : Value) : Result Value :=
  match v with
  | text t => .ok (text t.reverse)
  | view .once items => .ok (list items.reverse)
  | loop position items => .ok (list (items.drop (position + 1)).reverse)
  | _ => do return view .once (← v.reversedItems)

/-- Apply a filter that does not draw to a value. -/
def applyFilter (name : String) (v : Value) (g : Given) : Result Value :=
  match name with
  | "upper" => onText l Text.upper v g
  | "lower" => onText l Text.lower v g
  | "capitalize" => onText l Text.capitalize v g
  | "title" => onText l (titled []) v g
  | "string" | "safe" => onText l id v g
  | "trim" => do
    let given ← g.take ["chars"] 0
    let t ← v.shown l
    return text (Text.trimBy (← stripped given.head?.join) t)
  | "replace" => do
    match ← g.take ["old", "new", "count"] 2 with
    | [some old, some new, count] =>
      let count :=
        match count with
        | some none => Option.none
        | c => c
      let t ← v.shown l
      let old ← old.shown l
      let new ← new.shown l
      return text (Text.replace old new (← limit count) t)
    | _ => .error .wrongType
  | "length" | "count" => do
    let _ ← g.exactly []
    return whole (← (v.look l).size)
  | "join" => joined l v g
  | "first" => do
    let _ ← g.exactly []
    return ((← (v.look l).items).head?).getD (missing "No first item, sequence was empty.")
  | "last" => do
    let _ ← g.exactly []
    return ((← (v.look l).reversedItems).head?).getD (missing "No last item, sequence was empty.")
  | "default" | "d" => defaulted l v g
  | "list" => do
    let _ ← g.exactly []
    return list (← (v.look l).items)
  | "reverse" => do
    let _ ← g.exactly []
    (v.look l).reversed
  | "abs" => do
    let _ ← g.exactly []
    match (← v.useFully).numeric? with
    | some (.whole n) => return whole n.natAbs
    | some (.fraction x) => return fraction x.abs
    | Option.none => .error .wrongType
  | "items" => do
    let _ ← g.exactly []
    match v with
    | missing _ | blank _ => return view .once []
    | mapping entries => return view .once (entries.map fun e => tuple [e.1, e.2])
    | _ => .error .wrongType
  | "snake_case" => do
    let _ ← g.exactly []
    recase Naming.snakeChars v
  | "pascal_case" => do
    let _ ← g.exactly []
    recase Naming.pascalChars v
  | "camel_case" => do
    let _ ← g.exactly []
    recase Naming.camelChars v
  | _ => .error .late

end

/-! ## Tests -/

/-- The names of the tests. -/
def tests : List String :=
  ["defined", "undefined", "none", "string", "number", "integer", "float", "boolean", "true",
   "false", "mapping", "sequence", "iterable", "callable", "even", "odd", "divisibleby", "eq",
   "equalto", "ne", "lt", "lessthan", "le", "gt", "greaterthan", "ge", "in", "lower", "upper",
   "filter", "test"]

/-- The rest of a number after division. -/
def remainder (v : Value) (n : Int) : Result Value := arithmetic .mod v (whole n)

/-- A test that compares with one other value. -/
def comparing (c : Comparison) (v : Value) (g : Given) : Result Bool := do
  match ← g.exactly ["other"] with
  | [other] => compare c v other
  | _ => .error .wrongType

/-- A test without arguments. -/
def holds (g : Given) (r : Result Bool) : Result Bool := do
  let _ ← g.exactly []
  r

/-- Whether a value passes a test. -/
def passes (name : String) (v : Value) (g : Given) : Result Bool :=
  match name with
  | "defined" => holds g (.ok !v.isMissing)
  | "undefined" => holds g (.ok v.isMissing)
  | "none" => holds g (.ok (match v with | none => true | _ => false))
  | "string" => holds g (.ok (match v with | text _ => true | _ => false))
  | "number" => holds g (.ok v.numeric?.isSome)
  | "integer" => holds g (.ok (match v with | whole _ => true | _ => false))
  | "float" => holds g (.ok (match v with | fraction _ => true | _ => false))
  | "boolean" => holds g (.ok (match v with | bool _ => true | _ => false))
  | "true" => holds g (.ok (match v with | bool true => true | _ => false))
  | "false" => holds g (.ok (match v with | bool false => true | _ => false))
  | "mapping" => holds g (.ok (match v with | mapping _ => true | _ => false))
  | "sequence" =>
    holds g (.ok (match v with
      | text _ | list _ | lent _ _ | tuple _ | mapping _ | range _ _ _ => true
      | _ => false))
  | "iterable" =>
    holds g (match v.items with
      | .ok _ => .ok true
      | .error .wrongType => .ok false
      | .error f => .error f)
  | "callable" =>
    holds g (.ok (match v with
      | routine _ _ _ _ | method _ _ | builtin _ | block _ _ | missing _ | blank _ => true
      | _ => false))
  | "even" => holds g do equal (← remainder v 2) (whole 0)
  | "odd" => holds g do equal (← remainder v 2) (whole 1)
  | "divisibleby" => do
    match ← g.exactly ["num"] with
    | [n] => equal (← arithmetic .mod v n) (whole 0)
    | _ => .error .wrongType
  | "eq" | "equalto" => comparing .eq v g
  | "ne" => comparing .ne v g
  | "lt" | "lessthan" => comparing .lt v g
  | "le" => comparing .le v g
  | "gt" | "greaterthan" => comparing .gt v g
  | "ge" => comparing .ge v g
  | "in" => comparing .isIn v g
  | "lower" => holds g do
    let t ← v.display
    return t == Text.lower t && t != Text.upper t
  | "upper" => holds g do
    let t ← v.display
    return t == Text.upper t && t != Text.lower t
  | "filter" => holds g do return filters.contains (messageText (← v.theText))
  | "test" => holds g do return tests.contains (messageText (← v.theText))
  | _ => .error .late

end Value

end Scaffold.Template
