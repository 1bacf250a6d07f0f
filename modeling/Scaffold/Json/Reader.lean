/-
  Reading JSON text.

  Beyond the usual grammar the words `NaN`, `Infinity` and `-Infinity` are numbers. Escapes of
  surrogates must come in pairs, numbers have a limited length, and values nest at most
  `maxNesting` deep.
-/
import Scaffold.Json.Value
import Scaffold.Number.Shortest
import Scaffold.Text.Utf8

namespace Scaffold.Json

/-- How deep arrays and objects may nest. -/
def maxNesting : Nat := 200

/-- Skip the blanks of JSON. -/
def skipBlanks : List Char → List Char
  | [] => []
  | c :: rest =>
    if c == ' ' || c == '\t' || c == '\n' || c == '\r' then skipBlanks rest else c :: rest

/-! ## Strings -/

/-- Four digits of base sixteen. -/
def hex4 : List Char → Option (Nat × List Char)
  | a :: b :: c :: d :: rest =>
    match Text.hexValue? a, Text.hexValue? b, Text.hexValue? c, Text.hexValue? d with
    | some a, some b, some c, some d => some (((a * 16 + b) * 16 + c) * 16 + d, rest)
    | _, _, _, _ => none
  | _ => none

/-- The character of an escape behind its backslash. -/
def readEscape : List Char → Option (Char × List Char)
  | '"' :: rest => some ('"', rest)
  | '\\' :: rest => some ('\\', rest)
  | '/' :: rest => some ('/', rest)
  | 'b' :: rest => some ('\x08', rest)
  | 'f' :: rest => some ('\x0c', rest)
  | 'n' :: rest => some ('\n', rest)
  | 'r' :: rest => some ('\r', rest)
  | 't' :: rest => some ('\t', rest)
  | 'u' :: rest =>
    match hex4 rest with
    | none => none
    | some (hi, rest) =>
      if 0xD800 ≤ hi && hi < 0xDC00 then
        match rest with
        | '\\' :: 'u' :: rest =>
          match hex4 rest with
          | none => none
          | some (lo, rest) =>
            if 0xDC00 ≤ lo && lo < 0xE000 then
              some (Char.ofNat (0x10000 + (hi - 0xD800) * 0x400 + (lo - 0xDC00)), rest)
            else none
        | _ => none
      else if 0xDC00 ≤ hi && hi < 0xE000 then none
      else some (Char.ofNat hi, rest)
  | _ => none

/-- The rest of a string up to its quote; `fuel` bounds its length. -/
def readString : Nat → List Char → Option (List Char × List Char)
  | 0, _ => none
  | fuel + 1, cs =>
    match cs with
    | [] => none
    | '"' :: rest => some ([], rest)
    | '\\' :: rest =>
      match readEscape rest with
      | none => none
      | some (c, rest) =>
        match readString fuel rest with
        | none => none
        | some (more, stop) => some (c :: more, stop)
    | c :: rest =>
      if c.toNat < 32 then none
      else
        match readString fuel rest with
        | none => none
        | some (more, stop) => some (c :: more, stop)

/-! ## Numbers -/

/-- Split off the leading digits. -/
def takeDigits (cs : List Char) : List Char × List Char :=
  (cs.takeWhile Text.isAsciiDigit, cs.dropWhile Text.isAsciiDigit)

/-- The number that digits spell. -/
def digitsValue (cs : List Char) : Nat :=
  cs.foldl (fun n c => 10 * n + (c.toNat - 48)) 0

/-- A word, if the text starts with it. -/
def afterWord (word : String) (cs : List Char) : Option (List Char) :=
  if word.toList.isPrefixOf cs then some (cs.drop word.length) else none

/-- Negate a float when a sign asks for it. -/
def signed (negative : Bool) (x : Float) : Float :=
  if negative then -x else x

/-- The exponent of a number, if it has one. -/
def readExponent (cs : List Char) : Option (Option Int × List Char) :=
  match cs with
  | c :: rest =>
    if c == 'e' || c == 'E' then
      let (negative, rest) := match rest with
        | '-' :: r => (true, r)
        | '+' :: r => (false, r)
        | r => (false, r)
      let (ds, rest) := takeDigits rest
      if ds.isEmpty then none
      else
        let n : Int := digitsValue ds
        some (some (if negative then -n else n), rest)
    else some (none, cs)
  | [] => some (none, cs)

/-- The fraction of a number, if it has one. -/
def readFraction (cs : List Char) : Option (Option (List Char) × List Char) :=
  match cs with
  | '.' :: rest =>
    let (ds, rest) := takeDigits rest
    if ds.isEmpty then none else some (some ds, rest)
  | _ => some (none, cs)

/-- A number behind its sign. -/
def readNumber (negative : Bool) (cs : List Char) : Option (Json × List Char) :=
  match afterWord "Infinity" cs with
  | some rest => some (.float (signed negative (1.0 / 0.0)), rest)
  | none =>
    let (whole, rest) := takeDigits cs
    if whole.isEmpty || (whole.length > 1 && whole.head? == some '0') then none
    else
      match readFraction rest with
      | none => none
      | some (fraction, rest) =>
        match readExponent rest with
        | none => none
        | some (exponent, rest) =>
          match fraction, exponent with
          | none, none =>
            if whole.length > Number.maxDigits then none
            else
              let n : Int := digitsValue whole
              some (.int (if negative then -n else n), rest)
          | _, _ =>
            let ds := fraction.getD []
            let e := exponent.getD 0 - ds.length
            let size := Number.floatOfDecimal (digitsValue (whole ++ ds)) e
            some (.float (signed negative size), rest)

/-! ## Values -/

mutual

/-- A value, with blanks before it, inside at most `depth` further arrays and objects. -/
def readValue : Nat → Nat → List Char → Option (Json × List Char)
  | 0, _, _ => none
  | fuel + 1, depth, cs =>
    match skipBlanks cs with
    | '"' :: rest =>
      (readString (fuel + 1) rest).map fun (s, rest) => (.str (String.ofList s), rest)
    | '[' :: rest =>
      match depth with
      | 0 => none
      | depth + 1 =>
        match skipBlanks rest with
        | ']' :: rest => some (.arr [], rest)
        | rest => (readItems fuel depth rest).map fun (items, rest) => (.arr items, rest)
    | '\x7b' :: rest =>
      match depth with
      | 0 => none
      | depth + 1 =>
        match skipBlanks rest with
        | '\x7d' :: rest => some (.obj [], rest)
        | rest => (readMembers fuel depth rest).map fun (members, rest) => (.obj members, rest)
    | '-' :: rest => readNumber true rest
    | cs =>
      match afterWord "true" cs with
      | some rest => some (.bool true, rest)
      | none =>
        match afterWord "false" cs with
        | some rest => some (.bool false, rest)
        | none =>
          match afterWord "null" cs with
          | some rest => some (.null, rest)
          | none =>
            match afterWord "NaN" cs with
            | some rest => some (.float (0.0 / 0.0), rest)
            | none => readNumber false cs

/-- The items of an array up to its bracket, at least one. -/
def readItems : Nat → Nat → List Char → Option (List Json × List Char)
  | 0, _, _ => none
  | fuel + 1, depth, cs =>
    match readValue fuel depth cs with
    | none => none
    | some (v, rest) =>
      match skipBlanks rest with
      | ']' :: rest => some ([v], rest)
      | ',' :: rest => (readItems fuel depth rest).map fun (vs, rest) => (v :: vs, rest)
      | _ => none

/-- The members of an object up to its brace, at least one. -/
def readMembers : Nat → Nat → List Char → Option (List (String × Json) × List Char)
  | 0, _, _ => none
  | fuel + 1, depth, cs =>
    match skipBlanks cs with
    | '"' :: rest =>
      match readString (fuel + 1) rest with
      | none => none
      | some (name, rest) =>
        match skipBlanks rest with
        | ':' :: rest =>
          match readValue fuel depth rest with
          | none => none
          | some (v, rest) =>
            match skipBlanks rest with
            | '\x7d' :: rest => some ([(String.ofList name, v)], rest)
            | ',' :: rest =>
              (readMembers fuel depth rest).map fun (ms, rest) =>
                ((String.ofList name, v) :: ms, rest)
            | _ => none
        | _ => none
    | _ => none

end

/-- The value that characters spell, nested at most `depth` deep. -/
def readDeep (depth : Nat) (cs : List Char) : Option Json :=
  match readValue (2 * cs.length + 2) depth cs with
  | none => none
  | some (v, rest) => if (skipBlanks rest).isEmpty then some v else none

/-- The value that characters spell. -/
def read (cs : List Char) : Option Json :=
  readDeep maxNesting cs

/-- The value that bytes spell. -/
def readBytes (bytes : List UInt8) : Option Json :=
  match Utf8.decode bytes with
  | .ok cs => read cs
  | .error _ => none

end Scaffold.Json
