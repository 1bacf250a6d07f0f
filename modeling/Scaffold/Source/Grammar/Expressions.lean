/-
  Expressions.

  The readers of a tree ask of an expression only whether it is a string, a string given a type
  with `as`, or something else, so binary operators are read as a flat chain.
-/
import Scaffold.Source.Grammar.Types

namespace Scaffold.Source.Grammar

/-- The kinds of expressions that a value can be assigned to. -/
def assignable (k : Kind) : Bool := k == .place

/-- A type inside an expression that ends so. -/
def typeEnding : Ending → Ending
  | .expression => .expression
  | _ => .operand

/-! ## Functions and classes -/

/-- A function without a name of its own in the enclosing scope. -/
def functionExpression : P :=
  .node .expression (seqs [opt (word "async"), word "function", opt (sym "*"),
    opt (.lexeme .name scanName), .rule (.signature .inside), .rule .block])

/-- What a function made with an arrow computes. -/
def arrowBody (ending : Ending) : P :=
  .alt (.rule .block) (.rule (.expression ending))

/-- A function made with an arrow. -/
def arrowFunction (ending : Ending) : P :=
  let name := .lexeme .name (scanNameExcept expressionWords)
  let rest := .seq (sym "=>") (arrowBody ending)
  .node .expression (alts [
    seqs [name, rest],
    seqs [word "async", .alt name (.rule (.signature .inside)), rest],
    seqs [.rule (.signature .inside), rest]])

/-- What a class builds on. -/
def heritage : P :=
  let parent := .seq (.rule (.operand .inside)) (opt (.rule .typeArguments))
  let ancestry := .seq (word "extends") (sepBy1 parent (sym ","))
  let contracts := .seq (word "implements") (sepBy1 (.rule (.type .inside)) (sym ","))
  .alt (.seq ancestry (opt contracts)) contracts

/-- A class without a name of its own in the enclosing scope. -/
def classExpression : P :=
  .node .expression (seqs [.many (.rule .decorator), word "class",
    opt (.lexeme .name (scanNameExcept ["extends", "implements"])), opt (.rule .typeParameters),
    opt heritage, .rule .classBody])

/-- A method with a body. -/
def methodDefinition (ending : Ending) : P :=
  seqs [methodWords, propertyName, opt (sym "?"), .rule (.signature ending), .rule .block]

/-- A static block, field, method or signature of a class. -/
def classMember : P :=
  let field := seqs [.many (.rule .decorator),
    opt (.alt (.seq (modifier "declare") (opt accessModifier))
      (.seq accessModifier (opt (modifier "declare")))),
    alts [
      seqs [modifier "abstract", opt (modifier "readonly")],
      seqs [modifier "readonly", opt (modifier "abstract")],
      modifier "accessor",
      seqs [opt (modifier "static"), opt (modifier "override"), opt (modifier "readonly")]],
    .absent (words ["abstract", "accessor"]), propertyName, opt (.alt (sym "?") (sym "!")),
    opt (ascribed .member)]
  let fieldEnd := .alt
    (seqs [initialValue .expression, .alt (semicolon .expression) (sym ",")])
    (.alt (semicolon .member) (sym ","))
  let abstractMethod := seqs [opt accessModifier, modifier "abstract", opt (modifier "override"),
    opt (alts [modifier "get", modifier "set", sym "*"]), propertyName, opt (sym "?"),
    .rule (.signature .member)]
  alts [
    sym ";",
    .seq (word "static") (.rule .block),
    seqs [.many (.rule .decorator), .absent (words ["abstract"]), methodDefinition .signature,
      opt (semicolon .member)],
    seqs [alts [abstractMethod, indexSignature, methodSignature .signature],
      .alt (semicolon .signature) (sym ",")],
    seqs [field, fieldEnd]]

/-- Members of a class between braces. -/
def classBody : P :=
  seqs [sym "\x7b", .many classMember, sym "\x7d"]

/-- A mark before a class or one of its parts. -/
def decorator : P :=
  let path := .seq anyName (.many (.seq (sym ".") anyName))
  .node .expression (.seq (sym "@") (.alt
    (seqs [sym "(", .rule (.expression .inside), sym ")"])
    (seqs [path, .many (seqs [opt (.rule .typeArguments), .rule .arguments])])))

/-! ## Literals -/

/-- Further items taken from a value. -/
def spread : P := .seq (sym "...") (.rule (.expression .inside))

/-- A value for each name. -/
def objectLiteral : P :=
  let item := alts [
    spread,
    methodDefinition .inside,
    seqs [propertyName, sym ":", .rule (.expression .inside)],
    anyName]
  .node .place (seqs [sym "\x7b", sparse item, sym "\x7d"])

/-- Names in braces that a value is taken apart into. -/
def objectTarget : P :=
  .seq (.ahead (sym "\x7b")) (.seq (.rule (.binding false)) (.ahead (sym "=")))

/-- Values in order. -/
def arrayLiteral : P :=
  .node .place (seqs [sym "[", sparse (.alt spread (.rule (.expression .inside))), sym "]"])

/-- Arguments of a call. -/
def arguments : P :=
  seqs [sym "(", sparse (.alt spread (.rule (.expression .inside))), sym ")"]

/-- An expression between parentheses, perhaps with a type. -/
def parenthesized : P :=
  .node .place (seqs [sym "(", .rule (.expressions .inside), opt (ascribed .inside), sym ")"])

/-! ## Expressions -/

/-- The name behind a point. -/
def memberName : P := .alt anyName (.lexeme .name scanPrivateName)

/-- An object made by a constructor. -/
def newExpression (ending : Ending) : P :=
  let target := .grow true anyKind none (.rule (.primary ending))
    (.alt (.node .place (.seq (sym ".") memberName))
      (.node .place (seqs [sym "[", .rule (.expressions .inside), sym "]"])))
  .node .expression (.seq (word "new") (alts [
    .seq (sym ".") (word "target"),
    seqs [target, opt (.seq (continues ending) (.rule .typeArguments)),
      opt (.seq (continues ending) (.rule .arguments))]]))

/-- Statements of a module used as an expression. -/
def moduleExpression : P :=
  .node .expression (seqs [word "namespace",
    .alt string (.seq anyName (.many (.seq (sym ".") anyName))), .rule .block])

/-- An expression that nothing precedes or follows. -/
def primary (ending : Ending) : P :=
  alts [
    arrowFunction ending,
    string,
    number,
    template,
    .lexeme .expression scanRegex,
    functionExpression,
    classExpression,
    newExpression ending,
    moduleExpression,
    .node .expression (.seq (word "import") (.alt (.ahead (sym "(")) (.seq (sym ".") anyName))),
    .node .expression (words ["this", "super", "true", "false", "null"]),
    .node .place (word "undefined"),
    parenthesized,
    arrayLiteral,
    objectLiteral,
    objectTarget,
    .lexeme .place (scanNameExcept expressionWords),
    .seq (.lexeme .expression scanPrivateName) (.ahead (word "in"))]

/-- What can follow an expression that type arguments stand behind. -/
def afterInstance : P :=
  alts [sym ";", sym ")", sym ",", sym "]", sym "\x7d", sym ":", .lineEnd .member]

/-- A call, a member or an increment behind an expression. -/
def suffix (ending : Ending) : P :=
  .seq (continues ending) (alts [
    .node .place (seqs [.alt (sym "?.") (.seq (.absent (sym "...")) (sym ".")), memberName]),
    .node .place (seqs [opt (sym "?."), sym "[", .rule (.expressions .inside), sym "]"]),
    .node .expression (seqs [opt (sym "?."), opt (.rule .typeArguments), .rule .arguments]),
    .node .expression template,
    .node .place (.seq (.absent (sym "!=")) (sym "!")),
    .node .expression (.alt (sym "++") (sym "--")),
    .node .expression (.seq (.rule .typeArguments) (.ahead afterInstance))])

/-- The sign between what is assigned to and the value. -/
def assignSign : P :=
  .alt (.lexeme .token (scanAnySymbol ["+=", "-=", "*=", "/=", "%=", "^=", "&=", "|=", ">>=",
      ">>>=", "<<=", "**=", "&&=", "||=", "??="]))
    (seqs [.absent (sym "=="), .absent (sym "=>"), sym "="])

/-- An expression with what follows it, and perhaps a value assigned to it. -/
def suffixed (ending : Ending) : P :=
  .grow false assignable none
    (.grow true anyKind none (.rule (.primary ending)) (suffix ending))
    (.seq (continues ending) (.node .expression (.seq assignSign (.rule (.expression ending)))))

/-- An expression without binary operators outside brackets. -/
def operand (ending : Ending) : P :=
  let unary := .alt (words ["typeof", "void", "delete", "await"])
    (.lexeme .token (scanAnySymbol ["++", "--", "!", "~", "-", "+"]))
  alts [
    .node .expression (.seq unary (.rule (.operand ending))),
    .node .expression (.seq (word "yield") (.alt
      (.seq (sym "*") (.rule (.expression ending)))
      (opt (.seq (continues ending) (.rule (.expression ending)))))),
    .rule (.suffixed ending),
    .node .expression (.seq (.rule .typeArguments) (.rule (.operand ending)))]

/-- The operators between two operands, longer ones first. -/
def binaryOperator : P :=
  alts [words ["instanceof", "in"],
    .seq (.absent (.alt (sym "++") (sym "--")))
      (.lexeme .token (scanAnySymbol ["===", "!==", "==", "!=", "<=", ">=", "<<", ">>>", ">>", "&&",
        "||", "??", "**", "<", ">", "+", "-", "*", "/", "%", "&", "|", "^"]))]

/-- The question mark of a choice between two values. -/
def choiceMark : P :=
  seqs [.absent (sym "??"), .absent (.seq (sym "?.") (.absent (.glued .token scanNumber))), sym "?"]

/-- What can follow an operand: an operator, a type or a choice. -/
def operatorStep (ending : Ending) : P :=
  .seq (continues ending) (alts [
    .node .asExpression (seqs [word "as",
      .alt (word "const") (.rule (.type (typeEnding ending)))]),
    .node .expression (seqs [word "satisfies", .rule (.type (typeEnding ending))]),
    .node .expression (.seq binaryOperator (.rule (.operand ending))),
    .node .expression (seqs [choiceMark, .rule (.expression .inside), sym ":",
      .rule (.expression ending)])])

/-- Operands with operators between them. -/
def expression (ending : Ending) : P :=
  .grow true anyKind none (.rule (.operand ending)) (operatorStep ending)

/-- Expressions between commas. -/
def expressions (ending : Ending) : P :=
  sepBy1 (.rule (.expression ending)) (sym ",")

end Scaffold.Source.Grammar
