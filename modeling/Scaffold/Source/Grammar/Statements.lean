/-
  Statements and declarations.
-/
import Scaffold.Source.Grammar.Expressions

namespace Scaffold.Source.Grammar

/-! ## Declarations -/

/-- A variable with its type and its value. -/
def declarator : P :=
  let name := .labelled .name
    (.alt (.lexeme .name (scanNameExcept expressionWords)) (.rule (.binding false)))
  .node .declarator (seqs [
    name, opt (.alt (.seq (sym "!") (ascribed .member)) (.labelled .type (ascribed .member))),
    opt (.seq (initialValue .expression) (.ahead (.alt (sym ",") (semicolon .expression))))])

/-- Variables of one declaration. -/
def variableDeclaration : P :=
  .node .variableDeclaration (seqs [
    .alt (words ["const", "var"]) (.seq (word "let") (continues .expression)),
    sepBy1 declarator (sym ","),
    .alt (semicolon .member) (.lineEnd .expression)])

/-- An interface. -/
def interfaceDeclaration : P :=
  let parent := .grow false anyKind none
    (.grow true anyKind none anyTypeName (.node .nestedTypeName (.seq (sym ".") anyTypeName)))
    (.node .genericType (.rule .typeArguments))
  .node .interfaceDeclaration (seqs [
    word "interface", .labelled .name anyTypeName, opt (.rule .typeParameters),
    opt (.node .otherType (.seq (word "extends") (sepBy1 parent (sym ",")))),
    .labelled .body (.node .interfaceBody (.rule .objectType))])

/-- A name for a type. -/
def typeAlias : P :=
  .node .statement (seqs [word "type", continues .expression, anyTypeName,
    opt (.rule .typeParameters), sym "=", .rule (.type .member), semicolon .member])

/-- A set of named constants. -/
def enumDeclaration : P :=
  let item := .seq propertyName (opt (initialValue .inside))
  .node .statement (seqs [opt (word "const"), word "enum", anyName,
    sym "\x7b", opt (commaList item), sym "\x7d"])

/-- Statements under a name. -/
def moduleDeclaration : P :=
  .node .statement (seqs [words ["namespace", "module"], continues .expression,
    .alt string (.seq anyName (.many (.seq (sym ".") anyName))), opt (.rule .block)])

/-- A function with or without a body. -/
def functionDeclaration : P :=
  let opening := seqs [opt (.seq (word "async") (continues .expression)), word "function"]
  .node .statement (.alt
    (seqs [opening, opt (sym "*"), anyName, .rule (.signature .signature), .rule .block])
    (seqs [opening, anyName, .rule (.signature .signature), semicolon .signature]))

/-- A class with a name. -/
def classDeclaration : P :=
  .node .statement (seqs [.many (.rule .decorator), opt (word "abstract"), word "class",
    .lexeme .name (scanNameExcept ["extends", "implements"]), opt (.rule .typeParameters),
    opt heritage, .rule .classBody, opt (.lineEnd .member)])

/-- A second name for something declared elsewhere. -/
def importAlias : P :=
  .node .statement (seqs [word "import", anyName, sym "=", anyName,
    .many (.seq (sym ".") anyName), semicolon .member])

/-- A declaration of what exists elsewhere. -/
def ambientDeclaration : P :=
  .node .statement (seqs [word "declare", continues .expression, alts [
    .rule .declaration,
    .seq (word "global") (.rule .block),
    seqs [word "module", sym ".", anyName, sym ":", .rule (.type .member), semicolon .member]]])

/-- A declaration. -/
def declaration : P :=
  alts [interfaceDeclaration, enumDeclaration, variableDeclaration, typeAlias, functionDeclaration,
    classDeclaration, moduleDeclaration, importAlias, ambientDeclaration]

/-! ## Imports and exports -/

/-- The module that names come from. -/
def fromClause : P := .seq (word "from") string

/-- The name of something that another module offers. -/
def offeredName : P := .alt anyName string

/-- Names between braces, each perhaps under another name. -/
def nameList : P :=
  let plain := .seq offeredName (opt (.seq (word "as") offeredName))
  let stop := .ahead (.alt (sym ",") (sym "\x7d"))
  let item := .alt (.seq plain stop) (seqs [words ["type", "typeof"], plain, stop])
  seqs [sym "\x7b", opt (sepBy1 item (sym ",")), opt (sym ","), sym "\x7d"]

/-- An import of names from another module. -/
def importStatement : P :=
  let everything := seqs [sym "*", word "as", anyName]
  let clause := alts [everything, nameList,
    .seq anyName (opt (.seq (sym ",") (.alt everything nameList)))]
  let required := seqs [anyName, sym "=", word "require", sym "(", string, sym ")"]
  let body := alts [.seq clause fromClause, required, string]
  .node .statement (seqs [word "import",
    .alt body (.seq (words ["type", "typeof"]) body),
    opt (seqs [continues .member, word "with", objectLiteral]),
    semicolon .member])

/-- An export of a declaration, a value or names. -/
def exportStatement : P :=
  let opening := seqs [.many (.rule .decorator), word "export", continues .expression]
  let declared := .labelled .declaration (.rule .declaration)
  .node .exportStatement (seqs [opening, alts [
    seqs [sym "*", opt (.seq (word "as") offeredName), fromClause, semicolon .member],
    seqs [opt (word "type"), nameList, opt (.seq (continues .member) fromClause),
      semicolon .member],
    seqs [sym "=", .rule (.expression .expression), semicolon .expression],
    seqs [word "as", word "namespace", anyName, semicolon .member],
    seqs [word "default", .alt declared
      (seqs [.labelled .value (.rule (.expression .expression)), semicolon .expression])],
    declared]])

/-! ## Statements -/

/-- Words that start a statement and so no expression. -/
def statementWords : List String :=
  ["if", "for", "while", "do", "switch", "try", "throw", "return", "break", "continue",
   "debugger", "with", "var", "const", "enum", "interface", "abstract"]

/-- An expression between parentheses that a statement depends on. -/
def condition : P :=
  seqs [sym "(", .rule (.expressions .inside), opt (ascribed .inside), sym ")"]

/-- Statements between braces. -/
def block : P :=
  seqs [sym "\x7b", .many (.rule .statement), sym "\x7d", opt (.lineEnd .member)]

/-- The part of a loop that says what it runs over. -/
def loopHeader : P :=
  let target := .alt (.lexeme .name (scanNameExcept expressionWords)) (.rule (.binding false))
  let source := .seq (words ["in", "of"]) (.rule (.expressions .inside))
  let each := alts [
    seqs [words ["var", "let", "const"], target,
      opt (.seq (sym "=") (.rule (.expression .inside))), source],
    seqs [.alt (.rule (.binding false)) parenthesized, source]]
  let declared := seqs [words ["var", "let", "const"],
    sepBy1 (seqs [target, opt (ascribed .inside), opt (initialValue .inside)]) (sym ","), sym ";"]
  let counted := seqs [
    alts [declared, .seq (.rule (.expressions .inside)) (sym ";"), sym ";"],
    .alt (.seq (.rule (.expressions .inside)) (sym ";")) (sym ";"),
    opt (.rule (.expressions .inside))]
  seqs [sym "(", .alt (.seq each (sym ")")) (.seq counted (sym ")"))]

/-- The cases of a choice by value. -/
def cases : P :=
  let opening := .alt (seqs [word "case", .rule (.expressions .inside), sym ":"])
    (.seq (word "default") (sym ":"))
  let body := .many (.seq (.absent (words ["case", "default"])) (.rule .statement))
  seqs [sym "\x7b", .many (.seq opening body), sym "\x7d"]

/-- Statements that a keyword starts. -/
def keywordStatement : P :=
  let body := .rule .statement
  let guarded := .seq (word "catch") (.seq
    (opt (seqs [sym "(", .rule (.binding false), opt (ascribed .inside), sym ")"])) (.rule .block))
  let jump := fun w => seqs [word w, .alt (semicolon .member) (.seq anyName (semicolon .member))]
  .node .statement (alts [
    seqs [word "if", condition, body, opt (.seq (word "else") body)],
    seqs [word "for", opt (word "await"), loopHeader, body],
    seqs [word "while", condition, body],
    seqs [word "do", body, word "while", condition, opt (semicolon .member)],
    seqs [word "switch", condition, cases],
    seqs [word "try", .rule .block, opt guarded, opt (.seq (word "finally") (.rule .block))],
    seqs [word "with", condition, body],
    seqs [word "return", .alt (semicolon .member)
      (.seq (.rule (.expressions .expression)) (semicolon .expression))],
    seqs [word "throw", .rule (.expressions .expression), semicolon .expression],
    jump "break",
    jump "continue",
    seqs [word "debugger", semicolon .member]])

/-- A statement with a name to jump to. -/
def labelledStatement : P :=
  .node .statement (seqs [.lexeme .name (scanNameExcept (statementWords ++ expressionWords)),
    sym ":", .rule .statement])

/-- An expression as a statement. -/
def expressionStatement : P :=
  .node .statement (seqs [.absent (words statementWords), .rule (.expressions .expression),
    semicolon .expression])

/-- Any statement or declaration. -/
def statement : P :=
  alts [
    .rule .exportStatement,
    .rule .declaration,
    importStatement,
    keywordStatement,
    .node .statement (sym ";"),
    .node .statement (.rule .block),
    labelledStatement,
    expressionStatement]

end Scaffold.Source.Grammar
