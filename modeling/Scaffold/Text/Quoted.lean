/-
  Quoted text: a text between quotes, with escapes for what cannot stand for itself.

  Single quotes are used unless the text holds a single quote and no double quote.
-/
import Scaffold.Text.CodePoint
import Scaffold.Text.Printable

namespace Scaffold.Text

/-- The digit of base sixteen with this value. -/
def hexDigit (n : Nat) : Char :=
  if n < 10 then Char.ofNat (48 + n) else Char.ofNat (87 + n)

/-- The last `width` digits of a number in base sixteen. -/
def hexDigits : Nat → Nat → List Char
  | 0, _ => []
  | width + 1, n => hexDigits width (n / 16) ++ [hexDigit (n % 16)]

/-- The escape of a code point by its number, in the shortest of the three forms. -/
def numericEscape (n : Nat) : List Char :=
  if n < 0x100 then ['\\', 'x'] ++ hexDigits 2 n
  else if n < 0x10000 then ['\\', 'u'] ++ hexDigits 4 n
  else ['\\', 'U'] ++ hexDigits 8 n

/-- How a code point is written between quotes of the kind `quote`. -/
def quotePoint (quote : Char) (p : CodePoint) : Text :=
  if p.is quote || p.is '\\' then [.scalar '\\', p]
  else if p.is '\n' then [.scalar '\\', .scalar 'n']
  else if p.is '\r' then [.scalar '\\', .scalar 'r']
  else if p.is '\t' then [.scalar '\\', .scalar 't']
  else if isPrintable p then [p]
  else (numericEscape p.toNat).map .scalar

/-- The quote that a text is written with. -/
def quoteFor (t : Text) : Char :=
  if t.any (·.is '\'') && !t.any (·.is '"') then '"' else '\''

/-- A text between quotes. -/
def quoted (t : Text) : Text :=
  let q := quoteFor t
  [.scalar q] ++ t.flatMap (quotePoint q) ++ [.scalar q]

/-- A string between quotes; quoting leaves no surrogate, so the result is a string. -/
def quotedString (s : String) : String :=
  ((quoted (ofString s)).toString?).getD ""

end Scaffold.Text
