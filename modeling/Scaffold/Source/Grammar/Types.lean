/-
  Types and the members of interfaces.

  Intersections bind closer than unions, unions closer than conditional types, and function and
  `readonly` types reach as far as they can.
-/
import Scaffold.Source.Grammar.Rule

namespace Scaffold.Source.Grammar

/-! ## Types -/

/-- Every node may grow. -/
def anyKind (_ : Kind) : Bool := true

/-- Operators of expressions may follow a type that stands in one. -/
def inExpression : Ending → Bool
  | .operand => true
  | .expression => true
  | _ => false

/-- The bar between alternatives. -/
def bar (ending : Ending) : P :=
  seqs [.absent (sym "|\x7d"),
    if inExpression ending then .absent (sym "||") else .nothing, sym "|"]

/-- The ampersand between types that all hold. -/
def ampersand (ending : Ending) : P :=
  seqs [if inExpression ending then .absent (sym "&&") else .nothing, sym "&"]

/-- The question, the answers and the choice of a conditional type. -/
def conditionalStep (ending : Ending) : P :=
  .seq (continues ending) (.node .otherType (seqs [word "extends", .rule (.type .inside), sym "?",
    .rule (.type .inside), sym ":", .rule (.type ending)]))

/-- A union, or a condition on one. -/
def type (ending : Ending) : P :=
  .grow false anyKind none (.rule (.union ending)) (conditionalStep ending)

/-- A further alternative. -/
def unionStep (ending : Ending) (operand : P) : P :=
  .seq (continues ending) (.node .unionType (.seq (bar ending) operand))

/-- A further type that holds too. -/
def intersectionStep (ending : Ending) (operand : P) : P :=
  .seq (continues ending) (.node .otherType (.seq (ampersand ending) operand))

/-- Alternatives between bars. -/
def union (ending : Ending) : P :=
  .grow true anyKind none (.rule (.unionOperand ending))
    (unionStep ending (.rule (.unionOperand ending)))

/-- An alternative, perhaps with a bar before it. -/
def unionOperand (ending : Ending) : P :=
  .alt (.node .unionType (.seq (bar ending) (.rule (.unionOperand ending))))
    (.rule (.intersection ending))

/-- Types between ampersands. -/
def intersection (ending : Ending) : P :=
  .grow true anyKind none (.rule (.intersectionOperand ending))
    (intersectionStep ending (.rule (.intersectionOperand ending)))

/-- A type that holds, perhaps with an ampersand before it. -/
def intersectionOperand (ending : Ending) : P :=
  alts [
    .node .otherType (.seq (ampersand ending) (.rule (.intersectionOperand ending))),
    .node .unionType (.seq (bar ending) (.rule (.unionOperand ending))),
    .rule (.typeOperand ending)]

/-- A claim on the type of a name, as the result of a function. -/
def typePredicate (ending : Ending) : P :=
  .node .otherType (seqs [anyName, word "is", .rule (.type ending)])

/-- The type of the result of a function. -/
def resultType (ending : Ending) : P :=
  alts [
    .node .otherType (seqs [word "asserts", .alt (typePredicate ending) anyName]),
    typePredicate ending,
    .seq (.absent (word "asserts")) (.rule (.type ending))]

/-- A type that is fetched from another module. -/
def importedType (ending : Ending) : P :=
  let step := .seq (continues ending)
    (.alt (.seq (sym ".") (.alt anyName (.lexeme .name scanPrivateName))) (.rule .arguments))
  .node .otherType (seqs [word "import", step, .many step])

/-- A type without bars and ampersands outside brackets. -/
def typeOperand (ending : Ending) : P :=
  alts [
    .node .readonlyType (.seq (word "readonly") (.rule (.type ending))),
    .node .constructorType (seqs [opt (word "abstract"), word "new", opt (.rule .typeParameters),
      .rule (.parameters true), sym "=>", .rule (.type ending)]),
    .node .functionType (seqs [opt (.rule .typeParameters), .rule (.parameters true), sym "=>",
      resultType ending]),
    .node .otherType (seqs [word "infer", anyTypeName,
      opt (seqs [continues ending, word "extends", .rule (.union ending)])]),
    importedType ending,
    .rule (.primaryType ending)]

/-- Words that name no declared type. -/
def typeWords : List String :=
  ["any", "number", "boolean", "string", "symbol", "unique", "void", "unknown", "never", "object",
   "typeof", "keyof", "this", "true", "false", "null", "undefined", "new", "abstract", "import",
   "infer", "readonly", "const"]

/-- The types that need no declaration. -/
def builtinType : P :=
  .node .otherType (.alt (.seq (word "unique") (word "symbol"))
    (words ["any", "number", "boolean", "string", "symbol", "void", "unknown", "never", "object"]))

/-- A type with a single value. -/
def literalType : P :=
  .node .literalType (alts [string, number, .seq (.alt (sym "-") (sym "+")) number,
    words ["true", "false", "null", "undefined"]])

/-- A declared type, perhaps with a path before its name and arguments behind it. -/
def namedType : P :=
  .grow false anyKind (some .name)
    (.grow true anyKind none (.lexeme .typeName (scanNameExcept typeWords))
      (.node .nestedTypeName (.seq (sym ".") anyTypeName)))
    (.node .genericType (.labelled .typeArguments (.rule .typeArguments)))

/-- The type of a value. -/
def typeQuery (ending : Ending) : P :=
  let root := .alt (.seq (word "import") (.rule .arguments))
    (.alt (word "this") (.lexeme .name (scanNameExcept ["import", "this"])))
  let member := .seq (.alt (sym ".") (sym "?.")) (.alt anyName (.lexeme .name scanPrivateName))
  .node .otherType (seqs [word "typeof", root,
    .many (.seq (continues ending) (.alt member (.rule .arguments))),
    opt (.seq (continues ending) (.rule .typeArguments))])

/-- A position of a tuple. -/
def tupleItem : P :=
  alts [
    seqs [opt (sym "..."), anyName, opt (sym "?"), sym ":", .rule (.type .inside)],
    seqs [sym "...", .rule (.type .inside)],
    seqs [.rule (.type .inside), opt (sym "?")]]

/-- Types by position. -/
def tupleType : P :=
  .node .otherType (seqs [sym "[", opt (sepBy1 tupleItem (sym ",")), opt (sym ","), sym "]"])

/-- A template with types inside. -/
def templateType : P :=
  .node .otherType (seqs [sym templateMark,
    .many (.alt (.glued .fragment scanTemplateRun)
      (seqs [gluedSym "$\x7b", .rule (.union .inside), sym "\x7d"])),
    gluedSym templateMark])

/-- Brackets behind a type: an array of it, or a look-up in it. -/
def bracketStep (ending : Ending) : P :=
  .seq (continues ending) (.alt (.node .arrayType (seqs [sym "[", sym "]"]))
    (.node .otherType (seqs [sym "[", .rule (.type .inside), sym "]"])))

/-- Alternatives and conditions over types that brackets can follow. -/
def optionalOperand (ending : Ending) : P :=
  let operand := .rule (.primaryType ending)
  .grow false anyKind none
    (.grow true anyKind none
      (.grow true anyKind none operand
        (intersectionStep ending (.rule (.intersectionOperand ending))))
      (unionStep ending (.rule (.unionOperand ending))))
    (conditionalStep ending)

/-- A type that brackets can follow. -/
def primaryType (ending : Ending) : P :=
  .grow true anyKind none
    (alts [
      .node .parenthesizedType (seqs [sym "(", .rule (.type .inside), sym ")"]),
      .node .objectType (.rule .objectType),
      tupleType,
      templateType,
      literalType,
      typeQuery ending,
      .node .otherType (.seq (word "keyof") (.rule (.primaryType ending))),
      .node .otherType (word "this"),
      .node .otherType (sym "*"),
      .node .otherType (.seq (sym "?") (optionalOperand ending)),
      word "const",
      builtinType,
      namedType])
    (bracketStep ending)

/-- Type arguments, at least one. -/
def typeArguments : P :=
  .node .typeArguments (seqs [sym "<", commaList (.rule (.type .inside)), sym ">"])

/-- A type parameter with its bound and its default. -/
def typeParameter : P :=
  seqs [opt (.seq (word "const") (.ahead anyName)), anyTypeName,
    opt (.seq (.alt (word "extends") (sym ":")) (.rule (.type .inside))),
    opt (.seq (sym "=") (.rule (.type .inside)))]

/-- Type parameters, at least one. -/
def typeParameters : P :=
  .node .otherType (seqs [sym "<", commaList typeParameter, sym ">"])

/-- A type with the colon before it. -/
def ascribed (ending : Ending) : P :=
  .node .ascribed (.seq (sym ":") (.rule (.type ending)))

/-- A value with the equals sign before it. -/
def initialValue (ending : Ending) : P :=
  .seq (sym "=") (.labelled .value (.rule (.expression ending)))

/-! ## Parameters and bindings -/

/-- Words that start an expression and so name nothing. -/
def expressionWords : List String :=
  ["this", "super", "true", "false", "null", "undefined", "function", "class", "typeof", "void",
   "delete", "await", "yield", "import"]

/-- Words that name no parameter; inside a type those that start one join them. -/
def bindingWords (ofType : Bool) : List String :=
  let words := expressionWords.erase "undefined"
  if ofType then words ++ ["keyof", "unknown", "never", "unique", "infer", "abstract", "const"]
  else words

/-- A modifier of a parameter, before its name. -/
def parameterModifier (s : String) : P :=
  .seq (word s) (.ahead (alts [anyName, sym "\x7b", sym "[", sym "..."]))

/-- One parameter. -/
def parameter (ofType : Bool) : P :=
  seqs [.many (.rule .decorator),
    opt (words ["public", "private", "protected"] |> fun access =>
      .seq access (.ahead (alts [anyName, sym "\x7b", sym "["]))),
    opt (parameterModifier "override"), opt (parameterModifier "readonly"),
    .alt (.rule (.binding ofType)) (word "this"), opt (sym "?"), opt (ascribed .inside),
    opt (initialValue .inside)]

/-- Parameters between parentheses. -/
def parameters (ofType : Bool) : P :=
  seqs [sym "(", opt (commaList (parameter ofType)), sym ")"]

/-- A binding with a value for when there is none. -/
def bindingWithDefault (ofType : Bool) : P :=
  .seq (.rule (.binding ofType)) (opt (.seq (sym "=") (.rule (.expression .inside))))

/-- A name or the names inside a pattern. -/
def binding (ofType : Bool) : P :=
  let item := bindingWithDefault ofType
  let plain := .seq (.lexeme .name (scanNameExcept (bindingWords ofType)))
    (.many (.alt (.seq (sym ".") anyName)
      (seqs [sym "[", .rule (.expressions .inside), sym "]"])))
  let inObject := alts [
    .seq (sym "...") (.rule (.binding ofType)),
    seqs [propertyName, sym ":", item],
    .seq anyName (opt (.seq (sym "=") (.rule (.expression .inside))))]
  .node .place (alts [
    .seq (sym "...") (.rule (.binding ofType)),
    seqs [sym "\x7b", sparse inObject, sym "\x7d"],
    seqs [sym "[", sparse item, sym "]"],
    plain])

/-- Type parameters, parameters and the type of the result. -/
def signature (ending : Ending) : P :=
  seqs [opt (.rule .typeParameters), .rule (.parameters false),
    opt (.node .ascribed (.seq (sym ":") (resultType ending)))]

/-! ## Members of interfaces -/

/-- A property without a call signature. -/
def propertySignature : P :=
  .node .property (seqs [opt accessModifier, opt (modifier "static"), opt (modifier "override"),
    opt (modifier "readonly"), .labelled .name propertyName, opt (sym "?"),
    opt (.labelled .type (ascribed .member))])

/-- The words before the name of a method. -/
def methodWords : P :=
  seqs [opt accessModifier, opt (modifier "static"), opt (modifier "override"),
    opt (modifier "readonly"), opt (modifier "async"),
    opt (alts [modifier "get", modifier "set", sym "*"])]

/-- A method without a body. -/
def methodSignature (ending : Ending) : P :=
  .node .member (seqs [methodWords, propertyName, opt (sym "?"), continues .member,
    .rule (.signature ending)])

/-- A constructor without a body. -/
def constructSignature : P :=
  .node .member (seqs [opt (word "abstract"), word "new", opt (.rule .typeParameters),
    .rule (.parameters false), opt (ascribed .member)])

/-- The type of all properties with names of a type. -/
def indexSignature : P :=
  let mapped := seqs [anyName, word "in", .rule (.type .inside),
    opt (.seq (word "as") (.rule (.type .inside)))]
  let plain := seqs [anyName, sym ":", .rule (.type .inside)]
  .node .member (seqs [
    opt (.seq (opt (.alt (sym "-") (sym "+"))) (word "readonly")),
    sym "[", .alt mapped plain, sym "]",
    alts [sym ":", sym "?:", sym "-?:", sym "+?:"], .rule (.type .member)])

/-- One member of an interface. -/
def typeMember : P :=
  alts [
    .rule .exportStatement,
    constructSignature,
    indexSignature,
    .seq (.absent (word "abstract")) (.alt (methodSignature .member) propertySignature),
    .node .member (.rule (.signature .member))]

/-- Members between braces, with one separator between two of them. -/
def objectType : P :=
  let separator := alts [sym ",", sym ";", .lineEnd .member]
  seqs [.alt (sym "\x7b|") (sym "\x7b"),
    opt (seqs [opt (.alt (sym ",") (sym ";")), sepBy1 typeMember separator, opt separator]),
    .alt (sym "|\x7d") (sym "\x7d")]

end Scaffold.Source.Grammar
