import Scaffold.Tree.Value

/-!
# Syntax trees

A syntax tree is a tree of nodes in the shape of ESTree.  There are twenty-two
kinds of nodes, and a node of any other type is kept as `unknown` with its type
name and nothing below it.  Every child may be absent, and any kind of node may
stand in any child slot, with three exceptions: a declaration holds declarators,
a function has an identifier for a name and a block for a body.

A node has a span when its line numbers are not both zero.
-/

namespace Scaffold

/-- A place in a source text. -/
structure Position where
  /-- The line, counted from one. -/
  line : Int64 := 0
  /-- The column, counted from zero. -/
  column : Int64 := 0
  deriving DecidableEq, Repr, Inhabited

/-- The part of a source text that a node covers. -/
structure Span where
  /-- Where it starts. -/
  start : Position := {}
  /-- Where it ends. -/
  stop : Position := {}
  deriving DecidableEq, Repr, Inhabited

/-- Whether a span says nothing: both its lines are zero. -/
def Span.isZero (s : Span) : Bool := s.start.line == 0 && s.stop.line == 0

/-- The kinds of nodes that have a meaning here. -/
inductive Kind where
  | program
  | expressionStatement
  | returnStatement
  | blockStatement
  | ifStatement
  | forStatement
  | whileStatement
  | breakStatement
  | continueStatement
  | variableDeclaration
  | variableDeclarator
  | functionDeclaration
  | literal
  | identifier
  | binaryExpression
  | logicalExpression
  | unaryExpression
  | memberExpression
  | callExpression
  | arrayExpression
  | updateExpression
  | assignmentExpression
  deriving DecidableEq, Repr

/-- The type name of a kind. -/
def Kind.name : Kind → String
  | .program => "Program"
  | .expressionStatement => "ExpressionStatement"
  | .returnStatement => "ReturnStatement"
  | .blockStatement => "BlockStatement"
  | .ifStatement => "IfStatement"
  | .forStatement => "ForStatement"
  | .whileStatement => "WhileStatement"
  | .breakStatement => "BreakStatement"
  | .continueStatement => "ContinueStatement"
  | .variableDeclaration => "VariableDeclaration"
  | .variableDeclarator => "VariableDeclarator"
  | .functionDeclaration => "FunctionDeclaration"
  | .literal => "Literal"
  | .identifier => "Identifier"
  | .binaryExpression => "BinaryExpression"
  | .logicalExpression => "LogicalExpression"
  | .unaryExpression => "UnaryExpression"
  | .memberExpression => "MemberExpression"
  | .callExpression => "CallExpression"
  | .arrayExpression => "ArrayExpression"
  | .updateExpression => "UpdateExpression"
  | .assignmentExpression => "AssignmentExpression"

/-- All kinds. -/
def Kind.all : List Kind :=
  [.program, .expressionStatement, .returnStatement, .blockStatement, .ifStatement, .forStatement,
   .whileStatement, .breakStatement, .continueStatement, .variableDeclaration, .variableDeclarator,
   .functionDeclaration, .literal, .identifier, .binaryExpression, .logicalExpression,
   .unaryExpression, .memberExpression, .callExpression, .arrayExpression, .updateExpression,
   .assignmentExpression]

/-- The kind with a type name. -/
def Kind.ofName? (name : String) : Option Kind := Kind.all.find? (·.name == name)

/-- A name in a source text. -/
structure Identifier where
  /-- The name. -/
  name : String
  /-- Where it stands. -/
  span : Span := {}
  deriving DecidableEq, Repr

/-- A declared name with its initial value, over a type of nodes. -/
structure Declarator (α : Type) where
  /-- The name or pattern that is declared. -/
  id : Option α
  /-- The initial value. -/
  init : Option α
  /-- Where it stands. -/
  span : Span := {}

/-- A sequence of statements, over a type of nodes. -/
structure Block (α : Type) where
  /-- The statements. -/
  body : List (Option α)
  /-- Where it stands. -/
  span : Span := {}

/-- A node of a syntax tree. -/
inductive Node where
  | program (body : List (Option Node)) (sourceType : String) (span : Span)
  | expressionStatement (expression : Option Node) (span : Span)
  | returnStatement (argument : Option Node) (span : Span)
  | blockStatement (block : Block Node)
  | ifStatement (test consequent alternate : Option Node) (span : Span)
  | forStatement (init test update body : Option Node) (span : Span)
  | whileStatement (test body : Option Node) (span : Span)
  | breakStatement (span : Span)
  | continueStatement (span : Span)
  | variableDeclaration (keyword : String) (declarators : List (Declarator Node)) (span : Span)
  | variableDeclarator (declarator : Declarator Node)
  | functionDeclaration (id : Option Identifier) (params : List (Option Node))
      (body : Option (Block Node)) (span : Span)
  | literal (value : Value) (raw : String) (span : Span)
  | identifier (identifier : Identifier)
  | binaryExpression (operator : String) (left right : Option Node) (span : Span)
  | logicalExpression (operator : String) (left right : Option Node) (span : Span)
  | unaryExpression (operator : String) (isPrefix : Bool) (argument : Option Node) (span : Span)
  | memberExpression (object property : Option Node) (computed : Bool) (span : Span)
  | callExpression (callee : Option Node) (arguments : List (Option Node)) (span : Span)
  | arrayExpression (elements : List (Option Node)) (span : Span)
  | updateExpression (operator : String) (isPrefix : Bool) (argument : Option Node) (span : Span)
  | assignmentExpression (operator : String) (left right : Option Node) (span : Span)
  | unknown (type : String) (span : Span)

namespace Node

/-- The kind of a node, or the type name of a node that has none. -/
def kind : Node → Kind ⊕ String
  | .program .. => .inl .program
  | .expressionStatement .. => .inl .expressionStatement
  | .returnStatement .. => .inl .returnStatement
  | .blockStatement .. => .inl .blockStatement
  | .ifStatement .. => .inl .ifStatement
  | .forStatement .. => .inl .forStatement
  | .whileStatement .. => .inl .whileStatement
  | .breakStatement .. => .inl .breakStatement
  | .continueStatement .. => .inl .continueStatement
  | .variableDeclaration .. => .inl .variableDeclaration
  | .variableDeclarator .. => .inl .variableDeclarator
  | .functionDeclaration .. => .inl .functionDeclaration
  | .literal .. => .inl .literal
  | .identifier .. => .inl .identifier
  | .binaryExpression .. => .inl .binaryExpression
  | .logicalExpression .. => .inl .logicalExpression
  | .unaryExpression .. => .inl .unaryExpression
  | .memberExpression .. => .inl .memberExpression
  | .callExpression .. => .inl .callExpression
  | .arrayExpression .. => .inl .arrayExpression
  | .updateExpression .. => .inl .updateExpression
  | .assignmentExpression .. => .inl .assignmentExpression
  | .unknown type _ => .inr type

/-- The type name of a node. -/
def kindName (n : Node) : String :=
  match n.kind with
  | .inl kind => kind.name
  | .inr type => type

/-- The span of a node. -/
def span : Node → Span
  | .program _ _ span | .expressionStatement _ span | .returnStatement _ span
  | .ifStatement _ _ _ span | .forStatement _ _ _ _ span | .whileStatement _ _ span
  | .breakStatement span | .continueStatement span | .variableDeclaration _ _ span
  | .functionDeclaration _ _ _ span | .literal _ _ span | .binaryExpression _ _ _ span
  | .logicalExpression _ _ _ span | .unaryExpression _ _ _ span | .memberExpression _ _ _ span
  | .callExpression _ _ span | .arrayExpression _ span | .updateExpression _ _ _ span
  | .assignmentExpression _ _ _ span | .unknown _ span => span
  | .blockStatement b => b.span
  | .variableDeclarator d => d.span
  | .identifier i => i.span

/-- The children of a node that are present, in source order. -/
def children : Node → List Node
  | .program body _ _ => body.filterMap id
  | .expressionStatement expression _ => expression.toList
  | .returnStatement argument _ => argument.toList
  | .blockStatement b => b.body.filterMap id
  | .ifStatement test consequent alternate _ =>
    test.toList ++ consequent.toList ++ alternate.toList
  | .forStatement init test update body _ =>
    init.toList ++ test.toList ++ update.toList ++ body.toList
  | .whileStatement test body _ => test.toList ++ body.toList
  | .breakStatement _ | .continueStatement _ | .literal .. | .identifier _ | .unknown .. => []
  | .variableDeclaration _ declarators _ => declarators.map .variableDeclarator
  | .variableDeclarator d => d.id.toList ++ d.init.toList
  | .functionDeclaration name params body _ =>
    (name.map Node.identifier).toList ++ params.filterMap id
      ++ (body.map Node.blockStatement).toList
  | .binaryExpression _ left right _ | .logicalExpression _ left right _
  | .assignmentExpression _ left right _ => left.toList ++ right.toList
  | .unaryExpression _ _ argument _ | .updateExpression _ _ argument _ => argument.toList
  | .memberExpression object property _ _ => object.toList ++ property.toList
  | .callExpression callee arguments _ => callee.toList ++ arguments.filterMap id
  | .arrayExpression elements _ => elements.filterMap id

/-- The unary operators that have no counterpart in Go. -/
def isDroppedOperator (operator : String) : Bool :=
  operator == "typeof" || operator == "void" || operator == "delete"

/-- Whether a node is a construct that is written as nothing. -/
def isUnsupported : Node → Bool
  | .unknown .. => true
  | .unaryExpression operator .. => isDroppedOperator operator
  | _ => false

end Node

end Scaffold
