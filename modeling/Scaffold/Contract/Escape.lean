/-
  The value of an escape in a string literal.

  `decodeEscape` takes the text of one escape, backslash included. Escapes by number in braces
  name any code point; a backslash before a line end stands for nothing; a backslash before a
  character without a meaning of its own stands for that character. All other escapes go through
  `unescape`, which reads a whole text of escapes byte by byte.
-/
import Scaffold.Text.Digit
import Scaffold.Text.Quoted
import Scaffold.Text.Utf8

namespace Scaffold.Contract

/-- What an escape by number lacks. -/
inductive EscapeGap where
  /-- Two digits behind `\x`. -/
  | twoDigits
  /-- Four digits behind `\u`. -/
  | fourDigits
  /-- Eight digits behind `\U`. -/
  | eightDigits
  /-- A number within the range of code points. -/
  | range
  /-- A character behind the last backslash. -/
  | character
  /-- A name in braces behind `\N`. -/
  | name
  deriving DecidableEq

/-- Why an escape has no value. -/
inductive EscapeFault where
  /-- The number lies beyond `U+10FFFF`. -/
  | outOfRange
  /-- The number needs more than 31 bits. -/
  | tooLarge
  /-- The bytes from `start` on, `count` of them, are an escape that lacks something. -/
  | incomplete (start count : Nat) (gap : EscapeGap)
  deriving DecidableEq

/-- The digits of base sixteen between the braces of `\u{…}`, when the whole text is that. -/
def bracedDigits? (cs : List Char) : Option (List Char) :=
  match cs with
  | '\\' :: 'u' :: '\x7b' :: rest =>
    match rest.reverse with
    | '\x7d' :: digits =>
      if digits.isEmpty || !digits.all Text.isHexDigit then none else some digits.reverse
    | _ => none
  | _ => none

/-- The code point with a number. -/
def codePoint (n : Nat) : Except EscapeFault CodePoint :=
  if n > 0x7FFFFFFF then .error .tooLarge
  else
    match CodePoint.ofNat? n with
    | some p => .ok p
    | none => .error .outOfRange

/-- Characters behind a backslash that keep a meaning of their own, digits apart. -/
def isEscapeLetter (c : Char) : Bool :=
  "\\'\"bfnrtvxu".toList.contains c

/-- The code points of bytes, one each. -/
def latin (bytes : List UInt8) : Text :=
  bytes.map fun b => .scalar (Char.ofNat b.toNat)

/-- Up to `count` digits of base eight: their value and number. -/
def octal : Nat → List UInt8 → Nat × Nat
  | 0, _ => (0, 0)
  | _ + 1, [] => (0, 0)
  | count + 1, b :: rest =>
    if 48 ≤ b && b ≤ 55 then
      let (value, used) := octal count rest
      ((b.toNat - 48) * Nat.pow 8 used + value, used + 1)
    else (0, 0)

/-- Exactly `count` digits of base sixteen behind the value `acc`: the value, or how many digits
    there are instead. -/
def hexRun (acc : Nat) : Nat → List UInt8 → Except Nat Nat
  | 0, _ => .ok acc
  | _ + 1, [] => .error 0
  | count + 1, b :: rest =>
    match Text.hexValue? (Char.ofNat b.toNat) with
    | none => .error 0
    | some d =>
      match hexRun (16 * acc + d) count rest with
      | .ok n => .ok n
      | .error k => .error (k + 1)

/-- What a single letter behind a backslash stands for. -/
def letterValue? (b : UInt8) : Option Nat :=
  match Char.ofNat b.toNat with
  | '\\' => some 92
  | '\'' => some 39
  | '"' => some 34
  | 'b' => some 8
  | 'f' => some 12
  | 't' => some 9
  | 'n' => some 10
  | 'r' => some 13
  | 'v' => some 11
  | 'a' => some 7
  | _ => none

/-- The code point of an escape by number with `count` digits, behind its letter. -/
def numberEscape (start count : Nat) (gap : EscapeGap) (rest : List UInt8) :
    Except EscapeFault CodePoint :=
  match hexRun 0 count rest with
  | .error k => .error (.incomplete start (k + 2) gap)
  | .ok n =>
    match CodePoint.ofNat? n with
    | some p => .ok p
    | none => .error (.incomplete start (count + 2) .range)

/-- Read escapes byte by byte from position `start` on; `skip` bytes belong to an escape already
    read. -/
def unescapeFrom (start skip : Nat) : List UInt8 → Except EscapeFault Text
  | [] => .ok []
  | b :: rest =>
    match skip with
    | k + 1 => unescapeFrom (start + 1) k rest
    | 0 =>
      let put (value : Text) (used : Nat) : Except EscapeFault Text :=
        match unescapeFrom (start + 1) used rest with
        | .ok more => .ok (value ++ more)
        | .error f => .error f
      let putNumber (count : Nat) (gap : EscapeGap) (digits : List UInt8) :
          Except EscapeFault Text :=
        match numberEscape start count gap digits with
        | .ok p => put [p] (count + 1)
        | .error f => .error f
      if b != 92 then put (latin [b]) 0
      else
        match rest with
        | [] => .error (.incomplete start 1 .character)
        | c :: after =>
          if c == 10 then put [] 1
          else if 48 ≤ c && c ≤ 55 then
            let (value, used) := octal 3 rest
            put [.scalar (Char.ofNat value)] used
          else if c == 120 then putNumber 2 .twoDigits after
          else if c == 117 then putNumber 4 .fourDigits after
          else if c == 85 then putNumber 8 .eightDigits after
          else if c == 78 then .error (.incomplete start 2 .name)
          else
            match letterValue? c with
            | some n => put [.scalar (Char.ofNat n)] 1
            | none => put (latin [b, c]) 1

/-- The text that escapes stand for, each byte outside them standing for itself. -/
def unescape (bytes : List UInt8) : Except EscapeFault Text :=
  unescapeFrom 0 0 bytes

/-- The text that one escape stands for. -/
def decodeEscape (cs : List Char) : Except EscapeFault Text :=
  match bracedDigits? cs with
  | some digits => (codePoint (Text.hexNumber digits)).map ([·])
  | none =>
    match cs with
    | _ :: c :: _ =>
      if c == '\n' || c == '\r' then .ok []
      else if !isEscapeLetter c && !Text.isDigit c then .ok (cs.tail.map .scalar)
      else unescape (Utf8.encode cs)
    | _ => .ok []

/-- What an escape lacks, in words. -/
def EscapeGap.text : EscapeGap → String
  | twoDigits => "truncated \\xXX escape"
  | fourDigits => "truncated \\uXXXX escape"
  | eightDigits => "truncated \\UXXXXXXXX escape"
  | range => "illegal Unicode character"
  | character => "\\ at end of string"
  | name => "malformed \\N character escape"

end Scaffold.Contract
