/-
  UTF-8.

  `encode` writes characters as bytes and `decode` reads them back, stopping at the first
  ill-formed sequence with the bytes it spans and the reason. `units` reads any bytes at all:
  a byte that belongs to no well-formed sequence stands alone.
-/
import Scaffold.Text.CodePoint

namespace Scaffold.Utf8

/-- The bytes of one character. -/
def encodeChar (c : Char) : List UInt8 :=
  let n := c.toNat
  if n < 0x80 then [UInt8.ofNat n]
  else if n < 0x800 then [UInt8.ofNat (0xC0 + n / 64), UInt8.ofNat (0x80 + n % 64)]
  else if n < 0x10000 then
    [UInt8.ofNat (0xE0 + n / 4096), UInt8.ofNat (0x80 + n / 64 % 64), UInt8.ofNat (0x80 + n % 64)]
  else
    [UInt8.ofNat (0xF0 + n / 262144), UInt8.ofNat (0x80 + n / 4096 % 64),
      UInt8.ofNat (0x80 + n / 64 % 64), UInt8.ofNat (0x80 + n % 64)]

/-- The bytes of a list of characters. -/
def encode (cs : List Char) : List UInt8 :=
  cs.flatMap encodeChar

/-- The bytes of a string. -/
def encodeString (s : String) : List UInt8 :=
  encode s.toList

/-- Why bytes are not UTF-8. -/
inductive Reason where
  /-- No sequence starts with this byte. -/
  | invalidStart
  /-- The sequence is cut short by a byte that cannot continue it. -/
  | invalidContinuation
  /-- The bytes end inside a sequence. -/
  | unexpectedEnd
  deriving DecidableEq

/-- The first ill-formed sequence: `count` bytes from position `start`, the first being `byte`. -/
structure Fault where
  start : Nat
  count : Nat
  byte : UInt8
  reason : Reason
  deriving DecidableEq

/-- A byte that may follow the first byte of a sequence. -/
def isContinuation (b : UInt8) : Bool := 0x80 ≤ b && b < 0xC0

/-- Whether `second` may follow `first` at the start of a sequence of three or four bytes: shorter
    spellings, surrogates and numbers above `U+10FFFF` are ruled out by the second byte. -/
def secondFits (first second : UInt8) : Bool :=
  isContinuation second &&
    (if first == 0xE0 then 0xA0 ≤ second
     else if first == 0xED then second < 0xA0
     else if first == 0xF0 then 0x90 ≤ second
     else if first == 0xF4 then second < 0x90
     else true)

/-- What the start of some bytes is: a character with its length, or an ill-formed sequence. -/
inductive Step where
  | char (c : Char) (length : Nat)
  | bad (count : Nat) (reason : Reason)

/-- The number in the low six bits. -/
def low (b : UInt8) : Nat := b.toNat % 64

/-- Read one sequence that starts with the byte `b`. -/
def step (b : UInt8) (rest : List UInt8) : Step :=
  if b < 0x80 then .char (Char.ofNat b.toNat) 1
  else if b < 0xC2 then .bad 1 .invalidStart
  else if b < 0xE0 then
    match rest with
    | [] => .bad 1 .unexpectedEnd
    | b1 :: _ =>
      if isContinuation b1 then .char (Char.ofNat (b.toNat % 32 * 64 + low b1)) 2
      else .bad 1 .invalidContinuation
  else if b < 0xF0 then
    match rest with
    | [] => .bad 1 .unexpectedEnd
    | [b1] => if secondFits b b1 then .bad 2 .unexpectedEnd else .bad 1 .invalidContinuation
    | b1 :: b2 :: _ =>
      if !secondFits b b1 then .bad 1 .invalidContinuation
      else if !isContinuation b2 then .bad 2 .invalidContinuation
      else .char (Char.ofNat (b.toNat % 16 * 4096 + low b1 * 64 + low b2)) 3
  else if b < 0xF5 then
    match rest with
    | [] => .bad 1 .unexpectedEnd
    | [b1] => if secondFits b b1 then .bad 2 .unexpectedEnd else .bad 1 .invalidContinuation
    | [b1, b2] =>
      if !secondFits b b1 then .bad 1 .invalidContinuation
      else if !isContinuation b2 then .bad 2 .invalidContinuation
      else .bad 3 .unexpectedEnd
    | b1 :: b2 :: b3 :: _ =>
      if !secondFits b b1 then .bad 1 .invalidContinuation
      else if !isContinuation b2 then .bad 2 .invalidContinuation
      else if !isContinuation b3 then .bad 3 .invalidContinuation
      else .char (Char.ofNat (b.toNat % 8 * 262144 + low b1 * 4096 + low b2 * 64 + low b3)) 4
  else .bad 1 .invalidStart

/-- Read bytes that stand at position `start`; `skip` of them belong to a character already read. -/
def decodeFrom (start : Nat) (skip : Nat) : List UInt8 → Except Fault (List Char)
  | [] => .ok []
  | b :: rest =>
    match skip with
    | k + 1 => decodeFrom (start + 1) k rest
    | 0 =>
      match step b rest with
      | .char c length =>
        match decodeFrom (start + 1) (length - 1) rest with
        | .ok cs => .ok (c :: cs)
        | .error f => .error f
      | .bad count reason => .error ⟨start, count, b, reason⟩

/-- The characters that bytes spell, or their first ill-formed sequence. -/
def decode (bytes : List UInt8) : Except Fault (List Char) :=
  decodeFrom 0 0 bytes

/-- The string that bytes spell. -/
def decodeString (bytes : List UInt8) : Except Fault String :=
  (decode bytes).map String.ofList

/-- Read any bytes; `skip` of them belong to a character already read. -/
def unitsFrom (skip : Nat) : List UInt8 → Text
  | [] => []
  | b :: rest =>
    match skip with
    | k + 1 => unitsFrom k rest
    | 0 =>
      match step b rest with
      | .char c length => .scalar c :: unitsFrom (length - 1) rest
      | .bad _ _ => .stray b :: unitsFrom 0 rest

/-- The code points of any bytes, a byte of no sequence standing alone as a stray byte. -/
def units (bytes : List UInt8) : Text :=
  unitsFrom 0 bytes

/-- The bytes that a code point was read from; a surrogate that is no stray byte has none. -/
def unitBytes : CodePoint → List UInt8
  | .scalar c => encodeChar c
  | p@(.surrogate _) => p.strayByte?.toList

/-- The bytes that `units` reads as this text. -/
def textBytes (t : Text) : List UInt8 :=
  t.flatMap unitBytes

end Scaffold.Utf8
