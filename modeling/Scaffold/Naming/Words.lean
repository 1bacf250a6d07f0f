/-
  The words of a name, and names in the usual cases.

  A name is broken before the last of a run of capitals that a small letter follows, before a
  capital behind a small letter or digit, and at everything that is no letter or digit.
-/
import Scaffold.Text.Alphanumeric
import Scaffold.Text.Blank

namespace Scaffold.Naming

/-- Capital letters. -/
def isUpper (c : Char) : Bool := 'A' ≤ c && c ≤ 'Z'

/-- Small letters. -/
def isLower (c : Char) : Bool := 'a' ≤ c && c ≤ 'z'

/-- Digits. -/
def isNumeral (c : Char) : Bool := '0' ≤ c && c ≤ '9'

/-- Put a blank before the last of a run of capitals that a small letter follows. -/
def breakCapitals : List Char → List Char
  | a :: b :: c :: rest =>
    if isUpper a && isUpper b && isLower c then a :: ' ' :: breakCapitals (b :: c :: rest)
    else a :: breakCapitals (b :: c :: rest)
  | cs => cs

/-- Put a blank between a small letter or digit and a capital. -/
def breakHumps : List Char → List Char
  | a :: b :: rest =>
    if (isLower a || isNumeral a) && isUpper b then a :: ' ' :: breakHumps (b :: rest)
    else a :: breakHumps (b :: rest)
  | cs => cs

/-- The runs of letters and digits, where `run` holds the reversed start of the first one. -/
def runsFrom (run : List Char) : List Char → List (List Char)
  | [] => [run.reverse]
  | c :: rest =>
    if Text.isAsciiAlphanumeric c then runsFrom (c :: run) rest
    else run.reverse :: runsFrom [] rest

/-- The words of a name as lists of characters. -/
def wordList (name : List Char) : List (List Char) :=
  (runsFrom [] (breakHumps (breakCapitals name))).filter fun w => !w.isEmpty

/-- The words of a name. -/
def words (name : String) : List String :=
  (wordList name.toList).map String.ofList

/-! ## Cases -/

/-- All letters small. -/
def lowerAll (w : List Char) : List Char := w.map Char.toLower

/-- The first letter large. -/
def upperFirst : List Char → List Char
  | [] => []
  | c :: rest => c.toUpper :: rest

/-- The first letter small. -/
def lowerFirst : List Char → List Char
  | [] => []
  | c :: rest => c.toLower :: rest

/-- The words in small letters with low lines between them. -/
def snakeChars (name : List Char) : List Char :=
  Text.joinWith ['_'] ((wordList name).map lowerAll)

/-- The words one after the other, the first letter of each large. -/
def pascalChars (name : List Char) : List Char :=
  ((wordList name).map upperFirst).flatten

/-- As `pascalChars`, with the very first letter small. -/
def camelChars (name : List Char) : List Char :=
  lowerFirst (pascalChars name)

/-- A name in snake case. -/
def snakeCase (name : String) : String := String.ofList (snakeChars name.toList)

/-- A name in Pascal case. -/
def pascalCase (name : String) : String := String.ofList (pascalChars name.toList)

/-- A name in camel case. -/
def camelCase (name : String) : String := String.ofList (camelChars name.toList)

end Scaffold.Naming
