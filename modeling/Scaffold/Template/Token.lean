/-
  The tokens of a template.

  The language of templates is a part of Jinja2. Its tags have their usual form; what is left out
  of the language inside of them is said where it is read (`Template.Parser`), computed
  (`Template.Operation`, `Template.Function`) and run (`Template.Render`).

  A template is text with tags in it: `{{ … }}` prints a value, `{% … %}` is a statement and
  `{# … #}` a comment. Text between `{% raw %}` and `{% endraw %}` is kept as it is.

  A sign `-` at the edge of a tag removes the blanks on that side. Without a sign, the blanks
  between the start of a line and a statement or comment are removed, and so is a line end right
  behind it; the sign `+` keeps them.

  `Lexer.step` reads one token and `tokens` all of them. Malformed text is reported where it is
  met, behind the tokens before it.
-/
import Scaffold.Contract.Escape
import Scaffold.Number.Shortest
import Scaffold.Text.Blank
import Scaffold.Text.Identifier

namespace Scaffold.Template

/-! ## Tokens -/

/-- Signs of the expression language. -/
inductive Mark where
  | add | sub | mul | div | floorDiv | mod | pow | tilde
  | leftBracket | rightBracket | leftParen | rightParen | leftBrace | rightBrace
  | eq | ne | gt | ge | lt | le
  | assign | dot | colon | pipe | comma | semicolon
  deriving DecidableEq

/-- A token. -/
inductive Token where
  /-- Text outside tags. -/
  | text (cs : List Char)
  | openPrint
  | closePrint
  | openTag
  | closeTag
  | name (s : String)
  | string (t : Text)
  | whole (n : Nat)
  | fraction (x : Float)
  | mark (m : Mark)

/-- A token with the line it starts on, or a line on which no token can be read. -/
inductive Item where
  | token (line : Nat) (t : Token)
  | malformed (line : Nat)

/-! ## Tags -/

/-- The sign at the edge of a tag. -/
inductive Trim where
  /-- No sign. -/
  | usual
  /-- `-` -/
  | all
  /-- `+` -/
  | none
  deriving DecidableEq

/-- What a tag opens. -/
inductive Opening where
  | print
  | statement
  | comment
  | raw
  deriving DecidableEq

/-- What follows the characters `lead` at the start of `cs`. -/
def after? : List Char → List Char → Option (List Char)
  | [], cs => some cs
  | l :: lead, c :: cs => if l == c then after? lead cs else none
  | _ :: _, [] => none

/-- Drop blanks. -/
def skipBlanks (cs : List Char) : List Char := cs.dropWhile Text.isBlank

/-- The sign at the start, and what follows it. -/
def leadingTrim : List Char → Trim × List Char
  | '-' :: rest => (.all, rest)
  | '+' :: rest => (.none, rest)
  | cs => (.usual, cs)

/-- What follows a line end, if there is one. -/
def skipLineEnd : List Char → List Char
  | '\n' :: rest => rest
  | cs => cs

/-- What follows the end of a statement or comment that ends with `closing`. -/
def afterClosing? (closing cs : List Char) : Option (List Char) :=
  match after? ('+' :: closing) cs with
  | some rest => some rest
  | none =>
    match after? ('-' :: closing) cs with
    | some rest => some (skipBlanks rest)
    | none => (after? closing cs).map skipLineEnd

/-- What follows the end of a printing tag. -/
def afterPrint? (cs : List Char) : Option (List Char) :=
  match after? ['-', '\x7d', '\x7d'] cs with
  | some rest => some (skipBlanks rest)
  | none => after? ['\x7d', '\x7d'] cs

/-- What follows the end of the tag that opens raw text. -/
def afterRaw? (cs : List Char) : Option (List Char) :=
  match after? ['-', '%', '\x7d'] cs with
  | some rest => some (skipBlanks rest)
  | none => after? ['%', '\x7d'] cs

/-- The tag that opens at the start of a text: what it opens, its sign, and what follows. -/
def openingAt? : List Char → Option (Opening × Trim × List Char)
  | '\x7b' :: '%' :: rest =>
    let (trim, inner) := leadingTrim rest
    let raw := (after? ['r', 'a', 'w'] (skipBlanks inner)).bind fun r => afterRaw? (skipBlanks r)
    match raw with
    | some text => some (.raw, trim, text)
    | none => some (.statement, trim, inner)
  | '\x7b' :: '\x7b' :: rest => some (.print, leadingTrim rest)
  | '\x7b' :: '#' :: rest => some (.comment, leadingTrim rest)
  | _ => none

/-- The tag that ends raw text at the start of a text: its sign and what follows. -/
def rawEndAt? : List Char → Option (Trim × List Char)
  | '\x7b' :: '%' :: rest =>
    let (trim, inner) := leadingTrim rest
    ((after? ['e', 'n', 'd', 'r', 'a', 'w'] (skipBlanks inner)).bind fun r =>
      afterClosing? ['%', '\x7d'] (skipBlanks r)).map fun text => (trim, text)
  | _ => none

/-- The first place where `found?` succeeds: the text before it and what was found. -/
def firstPlace? {α : Type} (found? : List Char → Option α) : List Char → Option (List Char × α)
  | [] => (found? []).map fun a => ([], a)
  | c :: cs =>
    match found? (c :: cs) with
    | some a => some ([], a)
    | none => (firstPlace? found? cs).map fun r => (c :: r.1, r.2)

/-- Text without the blanks at its end. -/
def dropTrailingBlanks (text : List Char) : List Char :=
  (text.reverse.dropWhile Text.isBlank).reverse

/-- Text without the blanks behind its last line end, if nothing else stands there and the text has
    a line end or starts a line. -/
def dropIndent (lineStart : Bool) (text : List Char) : List Char :=
  let indent := text.reverse.takeWhile (· != '\n')
  let rest := text.reverse.dropWhile (· != '\n')
  if indent.all Text.isBlank && (!rest.isEmpty || lineStart) then rest.reverse else text

/-- The text before a tag after its sign has been obeyed. -/
def trimBefore (trim : Trim) (lineStart printing : Bool) (text : List Char) : List Char :=
  match trim with
  | .all => dropTrailingBlanks text
  | .none => text
  | .usual => if printing then text else dropIndent lineStart text

/-! ## Names, numbers and strings -/

/-- Digits with single low lines between them. -/
def digitRun : List Char → List Char
  | c :: '_' :: d :: rest =>
    if Text.isAsciiDigit c then
      if Text.isAsciiDigit d then c :: '_' :: digitRun (d :: rest) else [c]
    else []
  | c :: rest => if Text.isAsciiDigit c then c :: digitRun rest else []
  | [] => []

/-- Digits of a base with single low lines before them. -/
def basedRun (isDigit : Char → Bool) : List Char → List Char
  | '_' :: d :: rest => if isDigit d then '_' :: d :: basedRun isDigit rest else []
  | d :: rest => if isDigit d then d :: basedRun isDigit rest else []
  | [] => []

/-- The value of digits of a base; low lines are skipped. -/
def basedValue (base : Nat) (cs : List Char) : Nat :=
  (cs.filter (· != '_')).foldl (fun n c => base * n + (Text.hexValue? c).getD 0) 0

/-- A point and digits. -/
def pointRun : List Char → List Char
  | '.' :: rest =>
    let ds := digitRun rest
    if ds.isEmpty then [] else '.' :: ds
  | _ => []

/-- An exponent: its sign and digits. -/
def exponentRun : List Char → List Char
  | e :: rest =>
    if e == 'e' || e == 'E' then
      let (sign, digits) : List Char × List Char :=
        match rest with
        | '+' :: r => (['+'], r)
        | '-' :: r => (['-'], r)
        | _ => ([], rest)
      let ds := digitRun digits
      if ds.isEmpty then [] else e :: sign ++ ds
    else []
  | [] => []

/-- The number written by digits, a fraction and an exponent. -/
def fractionValue (digits fraction exponent : List Char) : Float :=
  let point := fraction.drop 1
  let places := (point.filter (· != '_')).length
  let power : Int :=
    match exponent.drop 1 with
    | '-' :: ds => -(basedValue 10 ds : Int)
    | '+' :: ds => basedValue 10 ds
    | ds => basedValue 10 ds
  Number.floatOfDecimal (basedValue 10 (digits ++ point)) (power - places)

/-- A number with a fraction or an exponent at the start of a text: its length and value. -/
def fractionAt? (cs : List Char) : Option (Nat × Float) :=
  let digits := digitRun cs
  if digits.isEmpty then none
  else
    let fraction := pointRun (cs.drop digits.length)
    let exponent := exponentRun (cs.drop (digits.length + fraction.length))
    if fraction.isEmpty && exponent.isEmpty then none
    else
      some (digits.length + fraction.length + exponent.length,
        fractionValue digits fraction exponent)

/-- A whole number at the start of a text: its length and value. -/
def wholeAt? (cs : List Char) : Option (Nat × Nat) :=
  let based (base : Nat) (isDigit : Char → Bool) (rest : List Char) : Option (Nat × Nat) :=
    let ds := basedRun isDigit rest
    if ds.isEmpty then none else some (ds.length + 2, basedValue base ds)
  let prefixed : Option (Nat × Nat) :=
    match cs with
    | '0' :: b :: rest =>
      if b == 'x' || b == 'X' then based 16 Text.isHexDigit rest
      else if b == 'o' || b == 'O' then based 8 (fun c => '0' ≤ c && c ≤ '7') rest
      else if b == 'b' || b == 'B' then based 2 (fun c => c == '0' || c == '1') rest
      else none
    | _ => none
  match prefixed with
  | some r => some r
  | none =>
    match cs with
    | '0' :: rest => some (1 + (basedRun (· == '0') rest).length, 0)
    | c :: _ =>
      if Text.isAsciiDigit c then
        let ds := digitRun cs
        some (ds.length, basedValue 10 ds)
      else none
    | [] => none

/-- The characters of a string between quotes, behind its opening quote; a backslash takes the next
    character with it. -/
def stringBody? (quote : Char) : List Char → Option (List Char)
  | [] => none
  | '\\' :: c :: rest => (stringBody? quote rest).map fun b => '\\' :: c :: b
  | c :: rest =>
    if c == quote then some []
    else if c == '\\' then none
    else (stringBody? quote rest).map (c :: ·)

/-- The bytes that a string is read from: characters beyond ASCII are escapes by number. -/
def stringBytes (cs : List Char) : List UInt8 :=
  Utf8.encode (cs.flatMap fun c => if c.toNat < 128 then [c] else Text.numericEscape c.toNat)

/-- A sign at the start of a text, the longest first: the sign and its length. -/
def markAt? : List Char → Option (Mark × Nat)
  | '/' :: '/' :: _ => some (.floorDiv, 2)
  | '*' :: '*' :: _ => some (.pow, 2)
  | '=' :: '=' :: _ => some (.eq, 2)
  | '!' :: '=' :: _ => some (.ne, 2)
  | '>' :: '=' :: _ => some (.ge, 2)
  | '<' :: '=' :: _ => some (.le, 2)
  | '+' :: _ => some (.add, 1)
  | '-' :: _ => some (.sub, 1)
  | '/' :: _ => some (.div, 1)
  | '*' :: _ => some (.mul, 1)
  | '%' :: _ => some (.mod, 1)
  | '~' :: _ => some (.tilde, 1)
  | '[' :: _ => some (.leftBracket, 1)
  | ']' :: _ => some (.rightBracket, 1)
  | '(' :: _ => some (.leftParen, 1)
  | ')' :: _ => some (.rightParen, 1)
  | '\x7b' :: _ => some (.leftBrace, 1)
  | '\x7d' :: _ => some (.rightBrace, 1)
  | '>' :: _ => some (.gt, 1)
  | '<' :: _ => some (.lt, 1)
  | '=' :: _ => some (.assign, 1)
  | '.' :: _ => some (.dot, 1)
  | ':' :: _ => some (.colon, 1)
  | '|' :: _ => some (.pipe, 1)
  | ',' :: _ => some (.comma, 1)
  | ';' :: _ => some (.semicolon, 1)
  | _ => none

/-- The sign that closes what a sign opens. -/
def Mark.closer? : Mark → Option Mark
  | leftBracket => some rightBracket
  | leftParen => some rightParen
  | leftBrace => some rightBrace
  | _ => none

/-- Whether a sign closes something. -/
def Mark.isCloser : Mark → Bool
  | rightBracket | rightParen | rightBrace => true
  | _ => false

/-! ## The lexer -/

/-- Where the lexer stands: in text, perhaps at the start of a line; in a comment; in raw text; or
    in a tag, with the signs that are still to be closed and whether the last token was a point. -/
inductive Mode where
  | text (lineStart : Bool)
  | comment
  | raw (lineStart : Bool)
  | tag (printing : Bool) (pending : List Mark) (afterDot : Bool)

/-- The state of the lexer: its mode, its line and what is still to be read. -/
structure Lexer where
  mode : Mode
  line : Nat
  rest : List Char

/-- What the lexer does next. -/
inductive Step where
  /-- All is read. -/
  | done
  /-- No token can be read on a line. -/
  | failed (line : Nat)
  /-- Some tokens have been read. -/
  | next (items : List Item) (l : Lexer)

/-- The number of line ends in a text. -/
def lineEnds (cs : List Char) : Nat := cs.countP (· == '\n')

/-- The part of `cs` before its tail `rest`. -/
def taken (cs rest : List Char) : List Char := cs.take (cs.length - rest.length)

/-- Whether the part of `cs` before its tail `rest` ends with a line end. -/
def endsLine (cs rest : List Char) : Bool := (taken cs rest).getLast? == some '\n'

/-- A token of text, unless the text is empty. -/
def textItem (line : Nat) (cs : List Char) : List Item :=
  if cs.isEmpty then [] else [.token line (.text cs)]

namespace Lexer

/-- The step from text to the next tag. -/
def stepText (lineStart : Bool) (line : Nat) (cs : List Char) : Step :=
  match firstPlace? openingAt? cs with
  | none =>
    if cs.isEmpty then .done
    else .next (textItem line cs) ⟨.text (cs.getLast? == some '\n'), line + lineEnds cs, []⟩
  | some (text, opening, trim, rest) =>
    let items := textItem line (trimBefore trim lineStart (opening == .print) text)
    let line := line + lineEnds text
    match opening with
    | .print => .next (items ++ [.token line .openPrint]) ⟨.tag true [] false, line, rest⟩
    | .statement => .next (items ++ [.token line .openTag]) ⟨.tag false [] false, line, rest⟩
    | .comment => .next items ⟨.comment, line, rest⟩
    | .raw =>
      let line := line + lineEnds (taken (cs.drop text.length) rest)
      .next items ⟨.raw (endsLine cs rest), line, rest⟩

/-- The step over a comment. -/
def stepComment (line : Nat) (cs : List Char) : Step :=
  match firstPlace? (afterClosing? ['#', '\x7d']) cs with
  | some (_, rest) =>
    .next [] ⟨.text (endsLine cs rest), line + lineEnds (taken cs rest), rest⟩
  | none => if cs.isEmpty then .done else .failed line

/-- The step over raw text. -/
def stepRaw (lineStart : Bool) (line : Nat) (cs : List Char) : Step :=
  match firstPlace? rawEndAt? cs with
  | some (text, trim, rest) =>
    .next (textItem line (trimBefore trim lineStart false text))
      ⟨.text (endsLine cs rest), line + lineEnds (taken cs rest), rest⟩
  | none => if cs.isEmpty then .done else .failed line

/-- What follows the end of a tag. -/
def afterTag? (printing : Bool) (cs : List Char) : Option (List Char) :=
  if printing then afterPrint? cs else afterClosing? ['%', '\x7d'] cs

/-- The step over a sign in a tag; what is closed has to be what was opened last. -/
def stepMark (printing : Bool) (pending : List Mark) (line : Nat) (cs : List Char) : Step :=
  match markAt? cs with
  | none => .failed line
  | some (m, length) =>
    let next (pending : List Mark) : Step :=
      .next [.token line (.mark m)] ⟨.tag printing pending (m == .dot), line, cs.drop length⟩
    if m.isCloser then
      match pending with
      | expected :: outer => if expected == m then next outer else .failed line
      | [] => .failed line
    else
      match m.closer? with
      | some closer => next (closer :: pending)
      | none => next pending

/-- The step over a string in a tag. -/
def stepString (printing : Bool) (pending : List Mark) (line : Nat) (cs : List Char) : Step :=
  match cs with
  | quote :: inner =>
    if quote == '\'' || quote == '"' then
      match stringBody? quote inner with
      | none => stepMark printing pending line cs
      | some body =>
        match Contract.unescape (stringBytes body) with
        | .ok value =>
          .next [.token line (.string value)]
            ⟨.tag printing pending false, line + lineEnds body, cs.drop (body.length + 2)⟩
        | .error _ => .failed line
    else stepMark printing pending line cs
  | [] => .done

/-- The step over a name in a tag; a run of name characters has to be an identifier. -/
def stepName (printing : Bool) (pending : List Mark) (line : Nat) (cs : List Char) : Step :=
  let word := cs.takeWhile Text.isNameChar
  if word.isEmpty then stepString printing pending line cs
  else if Text.isIdentifier word then
    .next [.token line (.name (String.ofList word))]
      ⟨.tag printing pending false, line, cs.drop word.length⟩
  else .failed line

/-- The step over a number in a tag. -/
def stepNumber (printing : Bool) (pending : List Mark) (afterDot : Bool) (line : Nat)
    (cs : List Char) : Step :=
  match if afterDot then none else fractionAt? cs with
  | some (length, x) =>
    .next [.token line (.fraction x)] ⟨.tag printing pending false, line, cs.drop length⟩
  | none =>
    match wholeAt? cs with
    | some (length, n) =>
      .next [.token line (.whole n)] ⟨.tag printing pending false, line, cs.drop length⟩
    | none => stepName printing pending line cs

/-- The step in a tag. -/
def stepTag (printing : Bool) (pending : List Mark) (afterDot : Bool) (line : Nat)
    (cs : List Char) : Step :=
  match if pending.isEmpty then afterTag? printing cs else none with
  | some rest =>
    .next [.token line (if printing then .closePrint else .closeTag)]
      ⟨.text (endsLine cs rest), line + lineEnds (taken cs rest), rest⟩
  | none =>
    let blanks := cs.takeWhile Text.isBlank
    if blanks.isEmpty then
      if cs.isEmpty then .done else stepNumber printing pending afterDot line cs
    else
      .next [] ⟨.tag printing pending false, line + lineEnds blanks, cs.drop blanks.length⟩

/-- Read the next token. -/
def step (l : Lexer) : Step :=
  match l.mode with
  | .text lineStart => stepText lineStart l.line l.rest
  | .comment => stepComment l.line l.rest
  | .raw lineStart => stepRaw lineStart l.line l.rest
  | .tag printing pending afterDot => stepTag printing pending afterDot l.line l.rest

/-- Read tokens, at most `fuel` steps. -/
def run : Nat → Lexer → List Item
  | 0, _ => []
  | fuel + 1, l =>
    match l.step with
    | .done => []
    | .failed line => [.malformed line]
    | .next items l => items ++ run fuel l

end Lexer

/-- The tokens of a template. Each step but the one into a comment or raw text at the very end
    consumes a character, so twice the length is enough. -/
def tokens (source : List Char) : List Item :=
  Lexer.run (2 * source.length + 2) ⟨.text true, 1, source⟩

end Scaffold.Template
