import Scaffold.Tree.Node

/-!
# Text of expressions

An expression is written on one line.  Operators stand between single spaces,
and `===` and `!==` become `==` and `!=`.  There is no precedence: a binary or
logical operation is put in parentheses exactly when it is an operand of
another one, or of a unary operator.

An absent child, an unsupported construct, a statement and a declaration are
written as the empty text.  In a list of arguments or elements the empty text
keeps its place.
-/

namespace Scaffold.Code

/-- Where an expression stands. -/
inductive Place where
  /-- Anywhere else. -/
  | free
  /-- As an operand of a binary or logical operation. -/
  | operand
  deriving DecidableEq, Repr

/-- A text in parentheses. -/
def grouped (text : String) : String := "(" ++ text ++ ")"

/-- The Go operator of a binary or logical operation. -/
def goOperator (operator : String) : String :=
  if operator = "===" then "==" else if operator = "!==" then "!=" else operator

/-- Whether a child is a binary or logical operation. -/
def isOperation : Option Node → Bool
  | some (.binaryExpression ..) | some (.logicalExpression ..) => true
  | _ => false

/-- The place of the children of a node. -/
def placeUnder (parent : Option Node) : Place := if isOperation parent then .operand else .free

/-- The text of a literal.  A number keeps its source text when it has one.  A null and an object,
which stands for a regular expression, are written as the quoted source text.  A boolean is quoted,
and an array is an empty string. -/
def literalText (value : Value) (raw : String) : String :=
  match value with
  | .null => Text.quote (if raw = "" then "null" else raw)
  | .bool b => Text.quote (if b then "true" else "false")
  | .integer n => if raw = "" then toString n else raw
  | .number f x => if raw = "" then Binary.codeText f x else raw
  | .string s => Text.quote s
  | .array _ => Text.quote ""
  | .object _ => Text.quote raw

/-- The operation on two operands, grouped when it is itself an operand. -/
def operation (place : Place) (operator left right : String) : String :=
  let text := left ++ " " ++ goOperator operator ++ " " ++ right
  match place with
  | .free => text
  | .operand => grouped text

mutual

/-- The text of a node as an expression. -/
def expression (place : Place) : Node → String
  | .literal value raw _ => literalText value raw
  | .identifier i => i.name
  | .binaryExpression operator left right _ =>
    operation place operator (expression? .operand left) (expression? .operand right)
  | .logicalExpression operator left right _ =>
    operation place operator (expression? .operand left) (expression? .operand right)
  | .unaryExpression operator _ argument _ =>
    if Node.isDroppedOperator operator then ""
    else
      let text := expression? .free argument
      operator ++ (if isOperation argument then grouped text else text)
  | .memberExpression object property computed _ =>
    let object := expression? .free object
    let property := expression? .free property
    if computed then object ++ "[" ++ property ++ "]" else object ++ "." ++ property
  | .callExpression callee arguments _ =>
    expression? .free callee ++ grouped (", ".intercalate (expressions arguments))
  | .arrayExpression elements _ => "\x7b" ++ ", ".intercalate (expressions elements) ++ "\x7d"
  | .updateExpression operator isPrefix argument _ =>
    let operand := expression? .free argument
    if isPrefix then operator ++ operand else operand ++ operator
  | .assignmentExpression operator left right _ =>
    expression? .free left ++ " " ++ (if operator = "" then "=" else operator) ++ " "
      ++ expression? .free right
  | _ => ""

/-- The text of a child as an expression. -/
def expression? (place : Place) : Option Node → String
  | none => ""
  | some n => expression place n

/-- The texts of arguments or elements. -/
def expressions : List (Option Node) → List String
  | [] => []
  | child :: rest => expression? .free child :: expressions rest

end

/-- Arguments or elements as one text. -/
def expressionList (nodes : List (Option Node)) : String := ", ".intercalate (expressions nodes)

end Scaffold.Code
