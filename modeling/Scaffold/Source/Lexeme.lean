/-
  The lexical level: blanks, comments, names, numbers and the pieces of strings.

  A `Scan` says how many code points at the start of a text form a lexeme, if any do. `endsLine`
  decides whether a statement or member may end here without a semicolon.
-/
import Scaffold.Text.Alphanumeric
import Scaffold.Text.CodePoint
import Scaffold.Text.Digit

namespace Scaffold.Source

/-- The length of a lexeme at the start of a text. -/
abbrev Scan := Text → Option Nat

/-! ## Blanks and comments -/

/-- The characters between lexemes. -/
def isGap (c : Char) : Bool :=
  let n := c.toNat
  (9 ≤ n && n ≤ 13) || n == 32 || n == 0x85 || n == 0xA0 || n == 0x1680 ||
    (0x2000 ≤ n && n ≤ 0x200B) || n == 0x2028 || n == 0x2029 || n == 0x202F || n == 0x205F ||
    n == 0x2060 || n == 0x3000 || n == 0xFEFF

/-- The characters that end a line comment. -/
def isCommentEnd (c : Char) : Bool :=
  c == '\n' || c == '\r' || c.toNat == 0x2028 || c.toNat == 0x2029

/-- The number of code points before one of these characters. -/
def countUntil (stop : Char → Bool) : Text → Nat
  | [] => 0
  | p :: rest => if p.satisfies stop false then 0 else countUntil stop rest + 1

/-- The number of code points up to and with the end of a block comment. -/
def blockEnd : Text → Option Nat
  | [] => none
  | p :: rest =>
    if p.is '*' && Text.startsWith ['/'] rest then some 2 else (blockEnd rest).map (· + 1)

/-- A comment: to the end of the line, or between `/*` and `*/`. -/
def scanComment : Scan := fun t =>
  match Text.after? ['/', '/'] t with
  | some rest => some (countUntil isCommentEnd rest + 2)
  | none =>
    match Text.after? ['/', '*'] t with
    | some rest => (blockEnd rest).map (· + 2)
    | none => none

/-- The line `#!…` that may open a source. -/
def scanHashBang : Scan := fun t =>
  (Text.after? ['#', '!'] t).map fun rest => countUntil (· == '\n') rest + 2

/-! ## Names and punctuation -/

/-- A character of a name; digits may not start one. -/
def isNameChar (c : Char) : Bool :=
  let n := c.toNat
  if n < 128 then Text.isAsciiAlphanumeric c || c == '_' || c == '$' || n == 127
  else !isGap c

/-- The length of a character escape at the start of a text. -/
def scanUnicodeEscape : Scan := fun t =>
  match Text.after? ['\\', 'u', '\x7b'] t with
  | some rest =>
    let n := Text.countWhile Text.isHexDigit rest
    if n != 0 && Text.startsWith ['\x7d'] (rest.drop n) then some (n + 4) else none
  | none =>
    match Text.after? ['\\', 'u'] t with
    | some rest => if 4 ≤ Text.countWhile Text.isHexDigit (rest.take 4) then some 6 else none
    | none => none

/-- The length of the rest of a name; `skip` code points belong to an escape already read. -/
def nameLength (skip : Nat) : Text → Nat
  | [] => 0
  | p :: rest =>
    match skip with
    | k + 1 => nameLength k rest + 1
    | 0 =>
      if p.satisfies isNameChar false then nameLength 0 rest + 1
      else if p.is '\\' then
        match scanUnicodeEscape (p :: rest) with
        | some n => nameLength (n - 1) rest + 1
        | none => 0
      else 0

/-- A name or keyword. -/
def scanName : Scan := fun t =>
  if Text.headIs Text.isAsciiDigit t then none
  else
    let n := nameLength 0 t
    if n == 0 then none else some n

/-- A name that is none of these words. -/
def scanNameExcept (words : List String) : Scan := fun t =>
  match scanName t with
  | none => none
  | some n => if words.any (fun w => Text.ofString w == t.take n) then none else some n

/-- This word, not followed by further characters of a name. -/
def scanWord (word : String) : Scan := fun t =>
  match Text.after? word.toList t with
  | none => none
  | some rest => if nameLength 0 rest == 0 then some word.length else none

/-- This punctuation. -/
def scanSymbol (symbol : String) : Scan := fun t =>
  (Text.after? symbol.toList t).map fun _ => symbol.length

/-- The first of these punctuations that matches. -/
def scanAnySymbol (symbols : List String) : Scan := fun t =>
  symbols.findSome? fun s => scanSymbol s t

/-- A name behind `#`. -/
def scanPrivateName : Scan := fun t =>
  match Text.after? ['#'] t with
  | some rest => (scanName rest).map (· + 1)
  | none => none

/-! ## Numbers -/

/-- Digits with single low lines between them; `wasDigit` tells whether a digit stands before. -/
def digitRun (isDigit : Char → Bool) (wasDigit : Bool) : Text → Nat
  | [] => 0
  | p :: rest =>
    if p.satisfies isDigit false then digitRun isDigit true rest + 1
    else if p.is '_' && wasDigit && Text.headIs isDigit rest then digitRun isDigit false rest + 1
    else 0

/-- Decimal digits with single low lines between them. -/
def decimalRun (t : Text) : Nat := digitRun Text.isAsciiDigit false t

/-- The exponent of a number, of length zero where there is none. -/
def exponentRun (t : Text) : Nat :=
  match t with
  | p :: rest =>
    if p.is 'e' || p.is 'E' then
      let sign := if Text.headIs (fun c => c == '+' || c == '-') rest then 1 else 0
      let n := decimalRun (rest.drop sign)
      if n == 0 then 0 else n + sign + 1
    else 0
  | [] => 0

/-- A number of another base: its mark, digits, and perhaps `n`. -/
def scanBased (marks : List Char) (isDigit : Char → Bool) : Scan := fun t =>
  match t with
  | z :: m :: rest =>
    if z.is '0' && marks.any (m.is ·) then
      let n := digitRun isDigit false rest
      if n == 0 then none
      else some (n + 2 + (if Text.startsWith ['n'] (rest.drop n) then 1 else 0))
    else none
  | _ => none

/-- A decimal number: digits, point, digits and exponent, or digits and `n`. -/
def scanDecimal : Scan := fun t =>
  let whole := decimalRun t
  let rest := t.drop whole
  match rest with
  | p :: after =>
    if p.is '.' then
      let fraction := decimalRun after
      if whole == 0 && fraction == 0 then none
      else some (whole + 1 + fraction + exponentRun (after.drop fraction))
    else if whole == 0 then none
    else if p.is 'n' then some (whole + 1)
    else some (whole + exponentRun rest)
  | [] => if whole == 0 then none else some whole

/-- A number in any of its forms. -/
def scanNumber : Scan := fun t =>
  (scanBased ['x', 'X'] Text.isHexDigit t) <|>
  (scanBased ['b', 'B'] (fun c => c == '0' || c == '1') t) <|>
  (scanBased ['o', 'O'] (fun c => '0' ≤ c && c ≤ '7') t) <|>
  scanDecimal t

/-! ## Strings -/

/-- An escape inside a string. -/
def scanEscape : Scan := fun t =>
  match t with
  | b :: p :: rest =>
    if !b.is '\\' then none
    else if p.is 'x' then
      if Text.countWhile Text.isHexDigit (rest.take 2) == 2 then some 4 else none
    else if p.is 'u' then scanUnicodeEscape t
    else if p.satisfies (fun c => '0' ≤ c && c ≤ '7') false then
      some (Text.countWhile (fun c => '0' ≤ c && c ≤ '7') (rest.take 2) + 2)
    else if (p.is '\r' || p.is '?') &&
        Text.headIs (fun c => c == '\n' || c.toNat == 0x2028 || c.toNat == 0x2029) rest then some 3
    else some 2
  | _ => none

/-- A run of characters of a string, up to its quote, an escape or the end of the line. -/
def scanFragment (quote : Char) : Scan := fun t =>
  let n := countUntil (fun c => c == quote || c == '\\' || c == '\r' || c == '\n') t
  if n == 0 then none else some n

/-- The number of code points of a template before its end, an escape or a substitution. -/
def templateRun : Text → Nat
  | [] => 0
  | p :: rest =>
    if p.is (Char.ofNat 96) || p.is '\\' || p.is (Char.ofNat 0) ||
        (p.is '$' && Text.startsWith ['\x7b'] rest) then 0
    else templateRun rest + 1

/-- A run of characters of a template. -/
def scanTemplateRun : Scan := fun t =>
  let n := templateRun t
  if n == 0 then none else some n

/-- The rest of a regular expression up to its closing slash; `inClass` inside brackets and
    `escaped` behind a backslash. -/
def patternEnd (inClass escaped : Bool) : Text → Option Nat
  | [] => none
  | p :: rest =>
    if p.is '\n' then none
    else if escaped then (patternEnd inClass false rest).map (· + 1)
    else if p.is '\\' then (patternEnd inClass true rest).map (· + 1)
    else if inClass then (patternEnd (!p.is ']') false rest).map (· + 1)
    else if p.is '/' then some 0
    else (patternEnd (p.is '[') false rest).map (· + 1)

/-- A regular expression between slashes with its flags. -/
def scanRegex : Scan := fun t =>
  match Text.after? ['/'] t with
  | none => none
  | some rest =>
    match patternEnd false false rest with
    | none => none
    | some 0 => none
    | some n =>
      some (n + 2 + Text.countWhile (fun c => 'a' ≤ c && c ≤ 'z') (rest.drop (n + 1)))

/-! ## Ends without a semicolon -/

/-- What may end at a line end, and what could continue it otherwise. -/
inductive Ending where
  /-- Nothing ends here: more must follow, whatever the line. -/
  | inside
  /-- As `inside`, for a type inside an expression, which operators may follow. -/
  | operand
  /-- A member or a declaration that no operator can follow. -/
  | member
  /-- A signature, which a body can follow. -/
  | signature
  /-- An expression, which any operator can follow. -/
  | expression
  deriving DecidableEq

/-- The blanks that the rule for line ends knows. -/
def isLineBlank (c : Char) : Bool :=
  let n := c.toNat
  (9 ≤ n && n ≤ 13) || n == 32 || n == 0x1680 || (0x2000 ≤ n && n ≤ 0x2006) ||
    (0x2008 ≤ n && n ≤ 0x200A) || n == 0x2028 || n == 0x2029 || n == 0x205F || n == 0x3000

/-- Letters of any script. -/
def isLetter (c : Char) : Bool :=
  Text.alphanumeric.contains c.toNat && !Text.isDigit c

/-- How far a reader of line ends is inside a comment. -/
inductive CommentState where
  | outside
  | line
  | block
  deriving DecidableEq

/-- What follows blanks and comments, read from the inside of a comment or from outside one; `skip`
    code points belong to a mark already read. Absent when a slash starts no comment. -/
def afterComments (state : CommentState) (skip : Nat) : Text → Option Text
  | [] => some []
  | p :: rest =>
    match skip with
    | k + 1 => afterComments state k rest
    | 0 =>
      match state with
      | .line => afterComments (if p.is '\n' then .outside else .line) 0 rest
      | .block =>
        if p.is '*' && Text.startsWith ['/'] rest then afterComments .outside 1 rest
        else afterComments .block 0 rest
      | .outside =>
        if p.satisfies isLineBlank false then afterComments .outside 0 rest
        else if p.is '/' then
          if Text.startsWith ['/'] rest then afterComments .line 1 rest
          else if Text.startsWith ['*'] rest then afterComments .block 1 rest
          else none
        else some (p :: rest)

/-- Whether a word that continues an expression starts here: `in` or `instanceof`. -/
def startsOperatorWord (t : Text) : Bool :=
  match Text.after? ['i', 'n'] t with
  | none => false
  | some rest =>
    if !Text.headIs isLetter rest then true
    else
      match Text.after? "stanceof".toList rest with
      | some after => !Text.headIs isLetter after
      | none => false

/-- Whether what starts the next line leaves the line before it ended. -/
def startsAnew (ending : Ending) (t : Text) : Bool :=
  match t with
  | [] => true
  | .surrogate _ :: _ => true
  | .scalar c :: rest =>
    if c.toNat == 96 || c == ',' || c == '.' || c == ';' || c == '*' || c == '%' || c == '>' ||
        c == '<' || c == '=' || c == '?' || c == '^' || c == '|' || c == '&' || c == '/' ||
        c == ':' then false
    else if c == '\x7b' then ending != .signature
    else if c == '(' || c == '[' then ending != .expression
    else if c == '+' then Text.startsWith ['+'] rest
    else if c == '-' then Text.startsWith ['-'] rest
    else if c == '!' then !Text.startsWith ['='] rest
    else if c == 'i' then !startsOperatorWord t
    else true

/-- Whether a statement or member can end at the start of this text without a semicolon: at the end
    of the source, before a closing brace, or at the end of a line that the next does not
    continue. -/
def endsLine (ending : Ending) : Text → Bool
  | [] => true
  | .surrogate _ :: _ => false
  | .scalar c :: rest =>
    if c.toNat == 0 then true
    else if c == '\x7d' then
      if Text.startsWith [':'] (rest.drop (Text.countWhile isLineBlank rest)) then
        ending == .expression
      else true
    else if c == '\n' then
      match afterComments .outside 0 rest with
      | some next => startsAnew ending next
      | none => false
    else if isLineBlank c then endsLine ending rest
    else false

end Scaffold.Source
