/-
  From source to tree.

  `grammar` collects the patterns of all rules, and `parse` reads a whole source. Where a
  statement fits no rule the tree ends with an error node at its first lexeme.
-/
import Scaffold.Source.Grammar.Statements

namespace Scaffold.Source

/-- The pattern of each rule. -/
def grammar : Grammar Rule
  | .statement => Grammar.statement
  | .declaration => Grammar.declaration
  | .exportStatement => Grammar.exportStatement
  | .block => Grammar.block
  | .classBody => Grammar.classBody
  | .objectType => Grammar.objectType
  | .type e => Grammar.type e
  | .union e => Grammar.union e
  | .unionOperand e => Grammar.unionOperand e
  | .intersection e => Grammar.intersection e
  | .intersectionOperand e => Grammar.intersectionOperand e
  | .typeOperand e => Grammar.typeOperand e
  | .primaryType e => Grammar.primaryType e
  | .typeArguments => Grammar.typeArguments
  | .typeParameters => Grammar.typeParameters
  | .parameters b => Grammar.parameters b
  | .binding b => Grammar.binding b
  | .signature e => Grammar.signature e
  | .expressions e => Grammar.expressions e
  | .expression e => Grammar.expression e
  | .operand e => Grammar.operand e
  | .suffixed e => Grammar.suffixed e
  | .primary e => Grammar.primary e
  | .arguments => Grammar.arguments
  | .decorator => Grammar.decorator

/-- Read statements up to the end of the source, at most `fuel` of them. -/
def readStatements (read : Reader) : Nat → Cursor → List SyntaxTree
  | 0, _ => []
  | fuel + 1, c =>
    let (comments, start) := c.skipTrivia fuel
    if start.rest.isEmpty then comments
    else
      match read start with
      | some (trees, next) =>
        if next.offset == start.offset then
          comments ++ [.leaf .error start.offset start.rest]
        else comments ++ trees ++ readStatements read fuel next
      | none => comments ++ [.leaf .error start.offset start.rest]

/-- How deep the rules of the grammar can nest on a source of this length: between two lexemes fewer
    than twenty rules are entered. -/
def depthFor (length : Nat) : Nat := 20 * (length + 2)

/-- The tree of a source. -/
def parse (source : Text) : SyntaxTree :=
  let bound := source.length + 1
  let read := grammar.read bound (depthFor source.length) .statement
  let (comments, start) := Cursor.skipTrivia bound ⟨source, 0⟩
  let children :=
    match scanHashBang start.rest with
    | some n =>
      comments ++ .leaf .statement start.offset (start.rest.take n) ::
        readStatements read (bound + 1) (start.advance n)
    | none => readStatements read (bound + 1) ⟨source, 0⟩
  .node .program none 0 source children

end Scaffold.Source
