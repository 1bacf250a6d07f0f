/-
  The rules of the grammar of interface definitions, and ways to write their patterns.

  The language is TypeScript. Rules that can stand at the end of a statement or member take the
  `Ending` that holds there, because a line end may then stop them.
-/
import Scaffold.Source.Pattern

namespace Scaffold.Source

/-- The rules of the grammar. -/
inductive Rule where
  /-- Any statement or declaration. -/
  | statement
  /-- A declaration, which `export` and `declare` can introduce. -/
  | declaration
  | exportStatement
  /-- Statements between braces. -/
  | block
  /-- The part of a class between braces. -/
  | classBody
  /-- Members of an interface between braces. -/
  | objectType
  | type (ending : Ending)
  /-- Alternatives between bars. -/
  | union (ending : Ending)
  /-- A type that a bar can stand before. -/
  | unionOperand (ending : Ending)
  /-- Types between ampersands. -/
  | intersection (ending : Ending)
  /-- A type that an ampersand can stand before. -/
  | intersectionOperand (ending : Ending)
  /-- A type without bars and ampersands outside brackets. -/
  | typeOperand (ending : Ending)
  /-- A type that brackets can follow. -/
  | primaryType (ending : Ending)
  | typeArguments
  | typeParameters
  /-- Parameters between parentheses; `ofType` inside a function type. -/
  | parameters (ofType : Bool)
  /-- What is bound to a value: a name or the names inside a pattern. -/
  | binding (ofType : Bool)
  /-- Type parameters, parameters and the type of the result. -/
  | signature (ending : Ending)
  /-- Expressions between commas. -/
  | expressions (ending : Ending)
  | expression (ending : Ending)
  /-- An expression without binary operators outside brackets. -/
  | operand (ending : Ending)
  /-- An expression that calls, members and assignments can follow. -/
  | suffixed (ending : Ending)
  /-- An expression that nothing precedes or follows. -/
  | primary (ending : Ending)
  | arguments
  | decorator
  deriving DecidableEq

namespace Grammar

/-- Patterns of this grammar. -/
abbrev P := Pattern Rule

/-- A pattern that never matches. -/
def never : P := .absent .nothing

/-- One pattern after the other. -/
def seqs : List P → P
  | [] => .nothing
  | [p] => p
  | p :: ps => .seq p (seqs ps)

/-- The first pattern that matches. -/
def alts : List P → P
  | [] => never
  | [p] => p
  | p :: ps => .alt p (alts ps)

/-- A pattern that may be left out. -/
def opt (p : P) : P := .alt p .nothing

/-- This keyword. -/
def word (s : String) : P := .lexeme .token (scanWord s)

/-- One of these keywords. -/
def words (ws : List String) : P := alts (ws.map word)

/-- This punctuation. -/
def sym (s : String) : P := .lexeme .token (scanSymbol s)

/-- This punctuation right here. -/
def gluedSym (s : String) : P := .glued .token (scanSymbol s)

/-- Any name. -/
def anyName : P := .lexeme .name scanName

/-- Any name of a type. -/
def anyTypeName : P := .lexeme .typeName scanName

/-- Repetitions with a separator between them, at least one. -/
def sepBy1 (p sep : P) : P := .seq p (.many (.seq sep p))

/-- Items that may be missing between commas that may not. -/
def sparse (item : P) : P := .seq (opt item) (.many (.seq (sym ",") (opt item)))

/-- Items between commas with perhaps a comma behind the last. -/
def commaList (item : P) : P := .seq (sepBy1 item (sym ",")) (opt (sym ","))

/-- Nothing ends here: no line end, where one could end the piece before it. -/
def continues : Ending → P
  | .inside => .nothing
  | .operand => .nothing
  | ending => .absent (.lineEnd ending)

/-- A semicolon, or a line end in its place. -/
def semicolon (ending : Ending) : P := .alt (sym ";") (.lineEnd ending)

/-! ## Strings, numbers and templates -/

/-- A string between quotes of one kind. -/
def stringOf (quote : String) (mark : Char) : P :=
  seqs [sym quote,
    .many (.alt (.glued .fragment (scanFragment mark)) (.glued .escape scanEscape)),
    gluedSym quote]

/-- A string. -/
def string : P := .node .string (.alt (stringOf "\"" '"') (stringOf "'" '\''))

/-- A number. -/
def number : P := .lexeme .expression scanNumber

/-- The mark around a template. -/
def templateMark : String := String.ofList [Char.ofNat 96]

/-- A template string with expressions inside. -/
def template : P :=
  .node .expression (seqs [sym templateMark,
    .many (alts [
      .glued .fragment scanTemplateRun,
      .glued .escape scanEscape,
      seqs [gluedSym "$\x7b", .rule (.expressions .inside), sym "\x7d"]]),
    gluedSym templateMark])

/-! ## Names of properties and modifiers -/

/-- A name between brackets that an expression computes. -/
def computedName : P :=
  .node .name (seqs [sym "[", .rule (.expression .inside), sym "]"])

/-- The name of a property. -/
def propertyName : P :=
  alts [anyName, .lexeme .name scanPrivateName, string, number, computedName]

/-- What can start the name of a property, or a modifier before it. -/
def propertyStart : P :=
  alts [anyName, sym "#", sym "\"", sym "'", sym "[", sym "*", number]

/-- A keyword that modifies the property behind it; where no property follows on the same line it is
    a name itself. -/
def modifier (s : String) : P :=
  seqs [word s, continues .member, .ahead propertyStart]

/-- Who may use a property. -/
def accessModifier : P := alts [modifier "public", modifier "private", modifier "protected"]

end Grammar

end Scaffold.Source
