/-
  Reading a template from its tokens.

  A malformed template is refused with the line of the token at which reading stops. Text that no
  token can be read from stops the reading as soon as it is the next thing to read.

  Of the statements of Jinja2 `import`, `from`, `call` and `autoescape` are not in the language; a
  template with one of them is refused like one with a statement that does not exist.

  The functions that read expressions and statements call each other; `fuel` bounds the depth of
  the calls, and `read` gives enough of it for every template.
-/
import Scaffold.Template.Form

namespace Scaffold.Template

/-- The tokens of a template that are still to be read, and the line of the last one read. -/
structure Stream where
  template : String
  items : List Item
  line : Nat

namespace Stream

/-- The next token, if there is one. -/
def head? (s : Stream) : Option Token :=
  match s.items with
  | .token _ t :: _ => some t
  | _ => none

/-- The line of the next token, or of the last one. -/
def headLine (s : Stream) : Nat :=
  match s.items with
  | .token line _ :: _ => line
  | _ => s.line

/-- The line on which the next thing to read is malformed. -/
def malformed? (s : Stream) : Option Nat :=
  match s.items with
  | .malformed line :: _ => some line
  | _ => none

/-- The stream without its next token. -/
def tail (s : Stream) : Stream := ⟨s.template, s.items.tail, s.headLine⟩

end Stream

/-- Reading from tokens: a result and the tokens that are left, or the line of a mistake. -/
abbrev Parse (α : Type) := StateT Stream (Except Nat) α

namespace Parse

/-- Stop at the next token. -/
def fail {α : Type} : Parse α := fun s => .error s.headLine

/-- Stop at a line. -/
def failAt {α : Type} (line : Nat) : Parse α := fun _ => .error line

/-- Go on with a stream unless it starts with something malformed. -/
def resume {α : Type} (a : α) (s : Stream) : Except Nat (α × Stream) :=
  match s.malformed? with
  | some line => .error line
  | none => .ok (a, s)

/-- Drop the next token. -/
def advance : Parse Unit := fun s => resume () s.tail

/-- The next token. -/
def head? : Parse (Option Token) := fun s => .ok (s.head?, s)

/-- The line of the next token. -/
def line : Parse Nat := fun s => .ok (s.headLine, s)

/-- The token behind the next one. -/
def second? : Parse (Option Token) := fun s =>
  match resume () s.tail with
  | .error line => .error line
  | .ok _ => .ok (s.tail.head?, s)

/-- Whether the next token satisfies a test. -/
def sees (test : Token → Bool) : Parse Bool := fun s => .ok (s.head?.any test, s)

/-- Drop the next token if it satisfies a test. -/
def skipIf (test : Token → Bool) : Parse Bool := do
  if ← sees test then
    advance
    return true
  else return false

/-- Drop the next token, which has to satisfy a test. -/
def expect (test : Token → Bool) : Parse Unit := do
  if ← sees test then advance else fail

/-- The name that has to come next. -/
def expectName : Parse String := do
  match ← head? with
  | some (.name s) =>
    advance
    return s
  | _ => fail

end Parse

open Parse

/-! ## Tests on tokens -/

/-- Whether a token is this name. -/
def isName (s : String) : Token → Bool
  | .name t => s == t
  | _ => false

/-- Whether a token is one of these names. -/
def isNameIn (names : List String) : Token → Bool
  | .name t => names.contains t
  | _ => false

/-- Whether a token is this sign. -/
def isMark (m : Mark) : Token → Bool
  | .mark n => m == n
  | _ => false

/-- Whether a token ends a statement. -/
def isCloseTag : Token → Bool
  | .closeTag => true
  | _ => false

/-- Whether a token ends a printing tag. -/
def isClosePrint : Token → Bool
  | .closePrint => true
  | _ => false

/-- Whether a token ends a sequence of expressions without parentheses of its own. -/
def endsTuple (ends : List String) : Token → Bool
  | .closePrint | .closeTag => true
  | .mark m => m == .rightParen
  | .name t => ends.contains t
  | _ => false

/-- Whether the argument of a test may start with a token. -/
def startsArgument : Token → Bool
  | .name t => !(t == "else" || t == "or" || t == "and")
  | .string _ | .whole _ | .fraction _ => true
  | .mark m => m == .leftParen || m == .leftBracket || m == .leftBrace
  | _ => false

/-- The comparison that a token stands for. -/
def Token.comparison? : Token → Option Comparison
  | .mark .eq => some .eq
  | .mark .ne => some .ne
  | .mark .lt => some .lt
  | .mark .le => some .le
  | .mark .gt => some .gt
  | .mark .ge => some .ge
  | _ => none

/-- The sum or difference that a token stands for. -/
def Token.sum? : Token → Option Arithmetic
  | .mark .add => some .add
  | .mark .sub => some .sub
  | _ => none

/-- The product or quotient that a token stands for. -/
def Token.product? : Token → Option Arithmetic
  | .mark .mul => some .mul
  | .mark .div => some .div
  | .mark .floorDiv => some .floorDiv
  | .mark .mod => some .mod
  | _ => none

/-- What the name of a value stands for. -/
def nameExpr (s : String) : Expr :=
  if s == "true" || s == "True" then .literal (.bool true)
  else if s == "false" || s == "False" then .literal (.bool false)
  else if s == "none" || s == "None" then .literal .none
  else .name s

/-- The one expression, or the tuple of several. -/
def tupleOf : List Expr → Expr
  | [e] => e
  | es => .tuple es

mutual

/-- What an expression gives values to when it stands on the left. -/
def Expr.binder? : Expr → Option Binder
  | .name s => some (.name s)
  | .member (.name s) part => some (.member s part)
  | .tuple items => (binders? items).map .tuple
  | _ => none

/-- What expressions give values to. -/
def binders? : List Expr → Option (List Binder)
  | [] => some []
  | e :: rest =>
    match e.binder?, binders? rest with
    | some b, some bs => some (b :: bs)
    | _, _ => none

end

/-! ## Expressions -/

/-- The arguments of a call. -/
structure Arguments where
  args : List Expr
  named : List (String × Expr)

/-- Whether an expression may end with a condition. -/
abbrev WithCondition := Bool

mutual

/-- An expression. -/
def parseExpr : Nat → WithCondition → Parse Expr
  | 0, _ => fail
  | fuel + 1, true => do
    let line ← line
    let e ← parseOr fuel
    parseChoices fuel line e
  | fuel + 1, false => parseOr fuel

/-- The conditions behind an expression. -/
def parseChoices : Nat → Nat → Expr → Parse Expr
  | 0, _, _ => fail
  | fuel + 1, at_, e => do
    if ← skipIf (isName "if") then
      let test ← parseOr fuel
      let no ← if ← skipIf (isName "else") then some <$> parseExpr fuel true else pure none
      let next ← line
      parseChoices fuel next (.choice test e no ⟨(← get).template, at_⟩)
    else return e

/-- A disjunction. -/
def parseOr : Nat → Parse Expr
  | 0 => fail
  | fuel + 1 => do
    let e ← parseAnd fuel
    parseOrs fuel e

/-- The further parts of a disjunction. -/
def parseOrs : Nat → Expr → Parse Expr
  | 0, _ => fail
  | fuel + 1, e => do
    if ← skipIf (isName "or") then
      let right ← parseAnd fuel
      parseOrs fuel (.or e right)
    else return e

/-- A conjunction. -/
def parseAnd : Nat → Parse Expr
  | 0 => fail
  | fuel + 1 => do
    let e ← parseNot fuel
    parseAnds fuel e

/-- The further parts of a conjunction. -/
def parseAnds : Nat → Expr → Parse Expr
  | 0, _ => fail
  | fuel + 1, e => do
    if ← skipIf (isName "and") then
      let right ← parseNot fuel
      parseAnds fuel (.and e right)
    else return e

/-- A negation. -/
def parseNot : Nat → Parse Expr
  | 0 => fail
  | fuel + 1 => do
    if ← skipIf (isName "not") then .not <$> parseNot fuel
    else
      let e ← parseSum fuel
      let rest ← parseCompared fuel
      return if rest.isEmpty then e else .compare e rest

/-- The further parts of a chain of comparisons. -/
def parseCompared : Nat → Parse (List (Comparison × Expr))
  | 0 => fail
  | fuel + 1 => do
    match (← head?).bind Token.comparison? with
    | some c =>
      advance
      let e ← parseSum fuel
      let rest ← parseCompared fuel
      return (c, e) :: rest
    | none =>
      if ← skipIf (isName "in") then
        let e ← parseSum fuel
        let rest ← parseCompared fuel
        return (.isIn, e) :: rest
      else if ← sees (isName "not") then
        match ← second? with
        | some (.name "in") =>
          advance
          advance
          let e ← parseSum fuel
          let rest ← parseCompared fuel
          return (.notIn, e) :: rest
        | _ => return []
      else return []

/-- A sum. -/
def parseSum : Nat → Parse Expr
  | 0 => fail
  | fuel + 1 => do
    let e ← parseJoin fuel
    parseSums fuel e

/-- The further parts of a sum. -/
def parseSums : Nat → Expr → Parse Expr
  | 0, _ => fail
  | fuel + 1, e => do
    match (← head?).bind Token.sum? with
    | some op =>
      advance
      let right ← parseJoin fuel
      parseSums fuel (.arithmetic op e right)
    | none => return e

/-- Texts one after the other. -/
def parseJoin : Nat → Parse Expr
  | 0 => fail
  | fuel + 1 => do
    let e ← parseProduct fuel
    let rest ← parseJoins fuel
    return if rest.isEmpty then e else .join (e :: rest)

/-- The further texts. -/
def parseJoins : Nat → Parse (List Expr)
  | 0 => fail
  | fuel + 1 => do
    if ← skipIf (isMark .tilde) then
      let e ← parseProduct fuel
      let rest ← parseJoins fuel
      return e :: rest
    else return []

/-- A product. -/
def parseProduct : Nat → Parse Expr
  | 0 => fail
  | fuel + 1 => do
    let e ← parsePower fuel
    parseProducts fuel e

/-- The further parts of a product. -/
def parseProducts : Nat → Expr → Parse Expr
  | 0, _ => fail
  | fuel + 1, e => do
    match (← head?).bind Token.product? with
    | some op =>
      advance
      let right ← parsePower fuel
      parseProducts fuel (.arithmetic op e right)
    | none => return e

/-- A power. -/
def parsePower : Nat → Parse Expr
  | 0 => fail
  | fuel + 1 => do
    let e ← parseUnary fuel true
    parsePowers fuel e

/-- The further parts of a power. -/
def parsePowers : Nat → Expr → Parse Expr
  | 0, _ => fail
  | fuel + 1, e => do
    if ← skipIf (isMark .pow) then
      let right ← parseUnary fuel true
      parsePowers fuel (.arithmetic .pow e right)
    else return e

/-- A signed operand, with filters behind it if they may stand here. -/
def parseUnary : Nat → Bool → Parse Expr
  | 0, _ => fail
  | fuel + 1, filters => do
    let e ←
      if ← skipIf (isMark .sub) then .negative <$> parseUnary fuel false
      else if ← skipIf (isMark .add) then .positive <$> parseUnary fuel false
      else parsePrimary fuel
    let e ← parseTrailers fuel e
    if filters then parseFilters fuel e else return e

/-- An operand. -/
def parsePrimary : Nat → Parse Expr
  | 0 => fail
  | fuel + 1 => do
    match ← head? with
    | some (.name s) =>
      advance
      return nameExpr s
    | some (.string t) =>
      advance
      let rest ← parseStrings fuel
      return .literal (.string (t ++ rest))
    | some (.whole n) =>
      advance
      return .literal (.whole n)
    | some (.fraction x) =>
      advance
      return .literal (.fraction x)
    | some (.mark .leftParen) =>
      advance
      let e ← parseTuple fuel true [] true
      expect (isMark .rightParen)
      return e
    | some (.mark .leftBracket) =>
      advance
      let items ← parseItems fuel true
      return .list items
    | some (.mark .leftBrace) =>
      advance
      let entries ← parseEntries fuel true
      return .mapping entries
    | _ => fail

/-- The further parts of a string. -/
def parseStrings : Nat → Parse Text
  | 0 => fail
  | fuel + 1 => do
    match ← head? with
    | some (.string t) =>
      advance
      let rest ← parseStrings fuel
      return t ++ rest
    | _ => return []

/-- The items of a list up to its end. -/
def parseItems : Nat → Bool → Parse (List Expr)
  | 0, _ => fail
  | fuel + 1, first => do
    if ← skipIf (isMark .rightBracket) then return []
    else
      if !first then expect (isMark .comma)
      if ← skipIf (isMark .rightBracket) then return []
      else
        let e ← parseExpr fuel true
        let rest ← parseItems fuel false
        return e :: rest

/-- The entries of a mapping up to its end. -/
def parseEntries : Nat → Bool → Parse (List (Expr × Expr))
  | 0, _ => fail
  | fuel + 1, first => do
    if ← skipIf (isMark .rightBrace) then return []
    else
      if !first then expect (isMark .comma)
      if ← skipIf (isMark .rightBrace) then return []
      else
        let k ← parseExpr fuel true
        expect (isMark .colon)
        let v ← parseExpr fuel true
        let rest ← parseEntries fuel false
        return (k, v) :: rest

/-- Expressions with commas between them: one of them alone, or a tuple. Only in parentheses may
    there be none. -/
def parseTuple : Nat → WithCondition → List String → Bool → Parse Expr
  | 0, _, _, _ => fail
  | fuel + 1, condition, ends, parenthesised => do
    if ← sees (endsTuple ends) then
      if parenthesised then return .tuple [] else fail
    else
      let e ← parseExpr fuel condition
      if ← sees (isMark .comma) then
        let rest ← parseTupleRest fuel condition ends
        return .tuple (e :: rest)
      else return e

/-- The further expressions of a tuple, each behind a comma. -/
def parseTupleRest : Nat → WithCondition → List String → Parse (List Expr)
  | 0, _, _ => fail
  | fuel + 1, condition, ends => do
    if ← skipIf (isMark .comma) then
      if ← sees (endsTuple ends) then return []
      else
        let e ← parseExpr fuel condition
        let rest ← parseTupleRest fuel condition ends
        return e :: rest
    else return []

/-- Members, indices and calls behind an operand. -/
def parseTrailers : Nat → Expr → Parse Expr
  | 0, _ => fail
  | fuel + 1, e => do
    match ← head? with
    | some (.mark .dot) =>
      advance
      let attributeLine ← line
      match ← head? with
      | some (.name s) =>
        advance
        parseTrailers fuel (.member e s)
      | some (.whole n) =>
        advance
        parseTrailers fuel (.index e (.literal (.whole n)))
      | _ =>
        advance
        failAt attributeLine
    | some (.mark .leftBracket) =>
      advance
      let e ← parseIndex fuel e
      parseTrailers fuel e
    | some (.mark .leftParen) =>
      let a ← parseArguments fuel
      parseTrailers fuel (.call e a.args a.named)
    | _ => return e

/-- What stands in brackets behind an operand. -/
def parseIndex : Nat → Expr → Parse Expr
  | 0, _ => fail
  | fuel + 1, e => do
    if ← skipIf (isMark .colon) then
      let e ← parseSlice fuel e none
      expect (isMark .rightBracket)
      return e
    else if ← skipIf (isMark .rightBracket) then return .index e (.tuple [])
    else
      let i ← parseExpr fuel true
      if ← skipIf (isMark .colon) then
        let e ← parseSlice fuel e (some i)
        expect (isMark .rightBracket)
        return e
      else
        let rest ← parseIndices fuel
        return .index e (tupleOf (i :: rest))

/-- The further indices up to the closing bracket. -/
def parseIndices : Nat → Parse (List Expr)
  | 0 => fail
  | fuel + 1 => do
    if ← skipIf (isMark .rightBracket) then return []
    else
      expect (isMark .comma)
      let i ← parseExpr fuel true
      let rest ← parseIndices fuel
      return i :: rest

/-- The bounds of a slice behind its first colon. -/
def parseSlice : Nat → Expr → Option Expr → Parse Expr
  | 0, _, _ => fail
  | fuel + 1, e, start => do
    let bound (stops : Token → Bool) : Parse (Option Expr) := do
      if ← sees stops then return none else some <$> parseExpr fuel true
    let stop ← bound fun t => isMark .colon t || isMark .rightBracket t || isMark .comma t
    if ← skipIf (isMark .colon) then
      let step ← bound fun t => isMark .rightBracket t || isMark .comma t
      return .slice e start stop step
    else return .slice e start stop none

/-- The arguments of a call with their parentheses. -/
def parseArguments : Nat → Parse Arguments
  | 0 => fail
  | fuel + 1 => do
    let opened ← line
    expect (isMark .leftParen)
    parseArgumentList fuel opened true ⟨[], []⟩

/-- The further arguments of a call; those without a name come first. -/
def parseArgumentList : Nat → Nat → Bool → Arguments → Parse Arguments
  | 0, _, _, _ => fail
  | fuel + 1, opened, first, a => do
    if ← skipIf (isMark .rightParen) then return a
    else
      if !first then expect (isMark .comma)
      if ← skipIf (isMark .rightParen) then return a
      else
        let key ← parseKeyword fuel
        match key with
        | some k =>
          let e ← parseExpr fuel true
          parseArgumentList fuel opened false { a with named := a.named ++ [(k, e)] }
        | none =>
          if a.named.isEmpty then
            let e ← parseExpr fuel true
            parseArgumentList fuel opened false { a with args := a.args ++ [e] }
          else failAt opened

/-- The name of a named argument with the sign behind it, if one comes next. -/
def parseKeyword : Nat → Parse (Option String)
  | 0 => fail
  | _ + 1 => do
    match ← head? with
    | some (.name s) =>
      match ← second? with
      | some (.mark .assign) =>
        advance
        advance
        return some s
      | _ => return none
    | _ => return none

/-- Filters, tests and calls behind an operand. -/
def parseFilters : Nat → Expr → Parse Expr
  | 0, _ => fail
  | fuel + 1, e => do
    match ← head? with
    | some (.mark .pipe) =>
      advance
      let e ← parseFilter fuel e
      parseFilters fuel e
    | some (.name "is") =>
      let e ← parseTest fuel e
      parseFilters fuel e
    | some (.mark .leftParen) =>
      let a ← parseArguments fuel
      parseFilters fuel (.call e a.args a.named)
    | _ => return e

/-- The further parts of a name with points in it. -/
def parseDotted : Nat → String → Parse String
  | 0, _ => fail
  | fuel + 1, name => do
    if ← skipIf (isMark .dot) then
      let part ← expectName
      parseDotted fuel (name ++ "." ++ part)
    else return name

/-- A filter behind its bar, and the bars that follow. -/
def parseFilter : Nat → Expr → Parse Expr
  | 0, _ => fail
  | fuel + 1, e => do
    let at_ ← line
    let name ← expectName
    let name ← parseDotted fuel name
    let a ← if ← sees (isMark .leftParen) then parseArguments fuel else pure ⟨[], []⟩
    let e := Expr.filter e name a.args a.named at_
    if ← skipIf (isMark .pipe) then parseFilter fuel e else return e

/-- A test. -/
def parseTest : Nat → Expr → Parse Expr
  | 0, _ => fail
  | fuel + 1, e => do
    let at_ ← line
    advance
    let negated ← skipIf (isName "not")
    let name ← expectName
    let name ← parseDotted fuel name
    let a ←
      if ← sees (isMark .leftParen) then parseArguments fuel
      else if ← sees startsArgument then
        if ← sees (isName "is") then fail
        else
          let arg ← parsePrimary fuel
          let arg ← parseTrailers fuel arg
          pure ⟨[arg], []⟩
      else pure ⟨[], []⟩
    let e := Expr.test e name a.args a.named at_
    return if negated then .not e else e

end

/-! ## Statements -/

/-- Names that values are given to, with commas between them. -/
def parseBinderItems : Nat → Bool → List String → Parse (List Expr × Bool)
  | 0, _, _ => fail
  | fuel + 1, dotted, ends => do
    if ← sees (endsTuple ends) then return ([], true)
    else
      let e ← parsePrimary fuel
      let e ←
        match e with
        | .name _ =>
          if dotted then
            if ← skipIf (isMark .dot) then
              let part ← expectName
              pure (Expr.member e part)
            else pure e
          else pure e
        | e => pure e
      if ← skipIf (isMark .comma) then
        let (rest, _) ← parseBinderItems fuel dotted ends
        return (e :: rest, true)
      else return ([e], false)

/-- What values are given to. -/
def parseBinder (fuel : Nat) (dotted : Bool) (ends : List String) : Parse Binder := do
  let at_ ← line
  let (items, isTuple) ← parseBinderItems fuel dotted ends
  if items.isEmpty then fail
  else
    match (if isTuple then Expr.tuple items else tupleOf items).binder? with
    | some b => return b
    | none => failAt at_

/-- A name that may be given a value. -/
def parseBoundName : Parse String := do
  let at_ ← line
  let s ← expectName
  match nameExpr s with
  | .name s => return s
  | _ => failAt at_

/-- The parameters of a routine; a parameter behind one with a default has a default too. -/
def parseParams : Nat → Bool → Bool → Parse (List (String × Option Expr))
  | 0, _, _ => fail
  | fuel + 1, first, defaults => do
    if ← skipIf (isMark .rightParen) then return []
    else
      if !first then expect (isMark .comma)
      let name ← parseBoundName
      if ← skipIf (isMark .assign) then
        let e ← parseExpr fuel true
        let rest ← parseParams fuel false true
        return (name, some e) :: rest
      else if defaults then fail
      else
        let rest ← parseParams fuel false false
        return (name, none) :: rest

/-- The bindings of a scope up to the end of its tag. -/
def parseBindings : Nat → Bool → Parse (List (Binder × Expr))
  | 0, _ => fail
  | fuel + 1, first => do
    if ← sees isCloseTag then return []
    else
      if !first then expect (isMark .comma)
      let b ← parseBinder fuel false []
      expect (isMark .assign)
      let e ← parseExpr fuel true
      let rest ← parseBindings fuel false
      return (b, e) :: rest

/-- The expressions of a printing statement up to the end of its tag. -/
def parsePrinted : Nat → Bool → Parse (List Stmt)
  | 0, _ => fail
  | fuel + 1, first => do
    if ← sees isCloseTag then return []
    else
      if !first then expect (isMark .comma)
      let e ← parseExpr fuel true
      let rest ← parsePrinted fuel false
      return .print e :: rest

/-- A second word behind a name, such as `missing` behind `ignore`. -/
def parsePhrase (first : List String) (second : String) : Parse (Option String) := do
  match ← head? with
  | some (.name s) =>
    if first.contains s then
      match ← second? with
      | some (.name t) =>
        if t == second then
          advance
          advance
          return some s
        else return none
      | _ => return none
    else return none
  | _ => return none

mutual

/-- Statements up to the end or up to a statement with one of the names `ends`, whose name is the
    next token then. -/
def parseBody : Nat → List String → Parse (List Stmt)
  | 0, _ => fail
  | fuel + 1, ends => do
    match ← head? with
    | none => return []
    | some (.text cs) =>
      advance
      let rest ← parseBody fuel ends
      return .text cs :: rest
    | some .openPrint =>
      advance
      let e ← parseTuple fuel true [] false
      expect isClosePrint
      let rest ← parseBody fuel ends
      return .print e :: rest
    | some .openTag =>
      advance
      if ← sees (isNameIn ends) then return []
      else
        let s ← parseStmt fuel
        expect isCloseTag
        let rest ← parseBody fuel ends
        return s ++ rest
    | _ => fail

/-- The body of a statement behind its tag, up to a statement with one of the names `ends`. -/
def parseInner : Nat → List String → Parse (List Stmt)
  | 0, _ => fail
  | fuel + 1, ends => do
    let _ ← skipIf (isMark .colon)
    expect isCloseTag
    let body ← parseBody fuel ends
    if (← head?).isNone then fail else return body

/-- The body of a statement and the name of the statement that ends it. -/
def parseEnded : Nat → String → Parse (List Stmt)
  | 0, _ => fail
  | fuel + 1, ending => do
    let body ← parseInner fuel [ending]
    advance
    return body

/-- The branches of a condition. -/
def parseBranches : Nat → Parse (List (Expr × List Stmt) × List Stmt)
  | 0 => fail
  | fuel + 1 => do
    let test ← parseTuple fuel false [] false
    let body ← parseInner fuel ["elif", "else", "endif"]
    if ← skipIf (isName "elif") then
      let (cases, orElse) ← parseBranches fuel
      return ((test, body) :: cases, orElse)
    else if ← skipIf (isName "else") then
      let orElse ← parseEnded fuel "endif"
      return ([(test, body)], orElse)
    else
      advance
      return ([(test, body)], [])

/-- A loop behind its first word. -/
def parseLoop : Nat → Parse Stmt
  | 0 => fail
  | fuel + 1 => do
    let at_ ← line
    let binder ← parseBinder fuel false ["in"]
    expect (isName "in")
    let source ← parseTuple fuel false ["recursive"] false
    let test ← if ← skipIf (isName "if") then some <$> parseExpr fuel true else pure none
    let _ ← skipIf (isName "recursive")
    let body ← parseInner fuel ["endfor", "else"]
    if ← skipIf (isName "else") then
      let orElse ← parseEnded fuel "endfor"
      return .forEach binder source test body orElse at_
    else
      advance
      return .forEach binder source test body [] at_

/-- An assignment behind its first word. -/
def parseAssign : Nat → Parse Stmt
  | 0 => fail
  | fuel + 1 => do
    let at_ ← line
    let binder ← parseBinder fuel true []
    if ← skipIf (isMark .assign) then
      let e ← parseTuple fuel true [] false
      return .assign binder e at_
    else
      let filtered ← if ← skipIf (isMark .pipe) then parseFilter fuel .captured else pure .captured
      let body ← parseEnded fuel "endset"
      return .assignText binder filtered body at_

/-- A block behind its first word. -/
def parseBlock : Nat → Nat → Parse Stmt
  | 0, _ => fail
  | fuel + 1, at_ => do
    let name ← expectName
    let isOpen ← skipIf (isName "scoped")
    let _ ← skipIf (isName "required")
    let body ← parseEnded fuel "endblock"
    let _ ← skipIf (isName name)
    return .block name isOpen body at_

/-- An insertion behind its first word. -/
def parseInsert : Nat → Parse Stmt
  | 0 => fail
  | fuel + 1 => do
    let template ← parseExpr fuel true
    let missing ← parsePhrase ["ignore"] "missing"
    let names ← parsePhrase ["with", "without"] "context"
    return .insert template missing.isSome (names != some "without")

/-- A statement, starting with its name. -/
def parseStmt : Nat → Parse (List Stmt)
  | 0 => fail
  | fuel + 1 => do
    let at_ ← line
    match ← head? with
    | some (.name "for") =>
      advance
      let s ← parseLoop fuel
      return [s]
    | some (.name "if") =>
      advance
      let (cases, orElse) ← parseBranches fuel
      return [.branch cases orElse]
    | some (.name "set") =>
      advance
      let s ← parseAssign fuel
      return [s]
    | some (.name "block") =>
      advance
      let s ← parseBlock fuel at_
      return [s]
    | some (.name "extends") =>
      advance
      let e ← parseExpr fuel true
      return [.inherit_ e at_]
    | some (.name "include") =>
      advance
      let s ← parseInsert fuel
      return [s]
    | some (.name "macro") =>
      advance
      let name ← parseBoundName
      expect (isMark .leftParen)
      let params ← parseParams fuel true false
      let body ← parseEnded fuel "endmacro"
      return [.routine name params body]
    | some (.name "with") =>
      advance
      let bindings ← parseBindings fuel true
      let body ← parseEnded fuel "endwith"
      return [.scope bindings body]
    | some (.name "filter") =>
      advance
      let filtered ← parseFilter fuel .captured
      let body ← parseEnded fuel "endfilter"
      return [.printText filtered body]
    | some (.name "print") =>
      advance
      parsePrinted fuel true
    | _ => fail

end

/-- Read the template of a name; a malformed one is refused with a line. -/
def read (name : String) (source : List Char) : Except Nat Template :=
  let items := tokens source
  let stream : Stream := ⟨name, items, 1⟩
  match stream.malformed? with
  | some line => .error line
  | none =>
    match parseBody (24 * (items.length + 2)) [] stream with
    | .ok (body, _) => .ok ⟨body⟩
    | .error line => .error line

end Scaffold.Template
