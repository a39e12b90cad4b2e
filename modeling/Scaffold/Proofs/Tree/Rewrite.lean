import Scaffold.Tree.Node

/-!
# Rewriting syntax trees

A *rewrite* says what may be exchanged in a tree, at four kinds of places: a
node wherever it stands, the statements of a program or block as a whole, the
body of a branch or loop, and the body of a function.  The last two are places
of their own because an absent body may be exchanged there as well.

`Rewrite.Changes R n m` is the closure of a rewrite.  The tree `m` arises from
`n` by applying `R` at any places of `n`, any number of times.  Spans are kept.
The other six relations are the closure at the children of a node, one for each
shape in which a node holds them.
-/

namespace Scaffold

/-- What may be exchanged in a tree. -/
structure Rewrite where
  /-- What a node may become. -/
  node : Node → Node → Prop := fun _ _ => False
  /-- What the statements of a program or block may become. -/
  statements : List (Option Node) → List (Option Node) → Prop := fun _ _ => False
  /-- What the body of a branch or loop may become. -/
  branch : Option Node → Option Node → Prop := fun _ _ => False
  /-- What the body of a function may become. -/
  functionBody : Option (Block Node) → Option (Block Node) → Prop := fun _ _ => False

namespace Rewrite

mutual

/-- A node and what it becomes. -/
inductive Changes (R : Rewrite) : Node → Node → Prop where
  | refl (n : Node) : Changes R n n
  | trans {n m k : Node} : Changes R n m → Changes R m k → Changes R n k
  | rule {n m : Node} : R.node n m → Changes R n m
  | program {body body' : List (Option Node)} {sourceType : String} {span : Span} :
      ChangesStatements R body body' →
      Changes R (.program body sourceType span) (.program body' sourceType span)
  | expressionStatement {e e' : Option Node} {span : Span} :
      ChangesChild R e e' → Changes R (.expressionStatement e span) (.expressionStatement e' span)
  | returnStatement {e e' : Option Node} {span : Span} :
      ChangesChild R e e' → Changes R (.returnStatement e span) (.returnStatement e' span)
  | blockStatement {body body' : List (Option Node)} {span : Span} :
      ChangesStatements R body body' →
      Changes R (.blockStatement ⟨body, span⟩) (.blockStatement ⟨body', span⟩)
  | ifStatement {test test' consequent consequent' alternate alternate' : Option Node}
      {span : Span} :
      ChangesChild R test test' → ChangesBranch R consequent consequent' →
      ChangesBranch R alternate alternate' →
      Changes R (.ifStatement test consequent alternate span)
        (.ifStatement test' consequent' alternate' span)
  | forStatement {init init' test test' update update' body body' : Option Node} {span : Span} :
      ChangesChild R init init' → ChangesChild R test test' → ChangesChild R update update' →
      ChangesBranch R body body' →
      Changes R (.forStatement init test update body span)
        (.forStatement init' test' update' body' span)
  | whileStatement {test test' body body' : Option Node} {span : Span} :
      ChangesChild R test test' → ChangesBranch R body body' →
      Changes R (.whileStatement test body span) (.whileStatement test' body' span)
  | variableDeclaration {keyword : String} {ds ds' : List (Declarator Node)} {span : Span} :
      ChangesDeclarators R ds ds' →
      Changes R (.variableDeclaration keyword ds span) (.variableDeclaration keyword ds' span)
  | variableDeclarator {id id' init init' : Option Node} {span : Span} :
      ChangesChild R id id' → ChangesChild R init init' →
      Changes R (.variableDeclarator ⟨id, init, span⟩) (.variableDeclarator ⟨id', init', span⟩)
  | functionDeclaration {id : Option Identifier} {params params' : List (Option Node)}
      {body body' : Option (Block Node)} {span : Span} :
      ChangesChildren R params params' → ChangesFunctionBody R body body' →
      Changes R (.functionDeclaration id params body span)
        (.functionDeclaration id params' body' span)
  | binaryExpression {operator : String} {left left' right right' : Option Node} {span : Span} :
      ChangesChild R left left' → ChangesChild R right right' →
      Changes R (.binaryExpression operator left right span)
        (.binaryExpression operator left' right' span)
  | logicalExpression {operator : String} {left left' right right' : Option Node} {span : Span} :
      ChangesChild R left left' → ChangesChild R right right' →
      Changes R (.logicalExpression operator left right span)
        (.logicalExpression operator left' right' span)
  | unaryExpression {operator : String} {isPrefix : Bool} {e e' : Option Node} {span : Span} :
      ChangesChild R e e' →
      Changes R (.unaryExpression operator isPrefix e span)
        (.unaryExpression operator isPrefix e' span)
  | memberExpression {object object' property property' : Option Node} {computed : Bool}
      {span : Span} :
      ChangesChild R object object' → ChangesChild R property property' →
      Changes R (.memberExpression object property computed span)
        (.memberExpression object' property' computed span)
  | callExpression {callee callee' : Option Node} {arguments arguments' : List (Option Node)}
      {span : Span} :
      ChangesChild R callee callee' → ChangesChildren R arguments arguments' →
      Changes R (.callExpression callee arguments span) (.callExpression callee' arguments' span)
  | arrayExpression {elements elements' : List (Option Node)} {span : Span} :
      ChangesChildren R elements elements' →
      Changes R (.arrayExpression elements span) (.arrayExpression elements' span)
  | updateExpression {operator : String} {isPrefix : Bool} {e e' : Option Node} {span : Span} :
      ChangesChild R e e' →
      Changes R (.updateExpression operator isPrefix e span)
        (.updateExpression operator isPrefix e' span)
  | assignmentExpression {operator : String} {left left' right right' : Option Node}
      {span : Span} :
      ChangesChild R left left' → ChangesChild R right right' →
      Changes R (.assignmentExpression operator left right span)
        (.assignmentExpression operator left' right' span)

/-- A child and what it becomes. -/
inductive ChangesChild (R : Rewrite) : Option Node → Option Node → Prop where
  | none : ChangesChild R none none
  | some {n m : Node} : Changes R n m → ChangesChild R (some n) (some m)

/-- The children in a list and what they become. -/
inductive ChangesChildren (R : Rewrite) : List (Option Node) → List (Option Node) → Prop where
  | nil : ChangesChildren R [] []
  | cons {c c' : Option Node} {cs cs' : List (Option Node)} :
      ChangesChild R c c' → ChangesChildren R cs cs' → ChangesChildren R (c :: cs) (c' :: cs')

/-- The statements of a program or block and what they become. -/
inductive ChangesStatements (R : Rewrite) : List (Option Node) → List (Option Node) → Prop where
  | rule {body body' : List (Option Node)} : R.statements body body' →
      ChangesStatements R body body'
  | trans {body body' body'' : List (Option Node)} : ChangesStatements R body body' →
      ChangesStatements R body' body'' → ChangesStatements R body body''
  | children {body body' : List (Option Node)} : ChangesChildren R body body' →
      ChangesStatements R body body'

/-- The body of a branch or loop and what it becomes. -/
inductive ChangesBranch (R : Rewrite) : Option Node → Option Node → Prop where
  | rule {body body' : Option Node} : R.branch body body' → ChangesBranch R body body'
  | trans {body body' body'' : Option Node} : ChangesBranch R body body' →
      ChangesBranch R body' body'' → ChangesBranch R body body''
  | child {body body' : Option Node} : ChangesChild R body body' → ChangesBranch R body body'

/-- Declarators and what they become. -/
inductive ChangesDeclarators (R : Rewrite) :
    List (Declarator Node) → List (Declarator Node) → Prop where
  | nil : ChangesDeclarators R [] []
  | cons {id id' init init' : Option Node} {span : Span} {ds ds' : List (Declarator Node)} :
      ChangesChild R id id' → ChangesChild R init init' → ChangesDeclarators R ds ds' →
      ChangesDeclarators R (⟨id, init, span⟩ :: ds) (⟨id', init', span⟩ :: ds')

/-- The body of a function and what it becomes. -/
inductive ChangesFunctionBody (R : Rewrite) :
    Option (Block Node) → Option (Block Node) → Prop where
  | rule {body body' : Option (Block Node)} : R.functionBody body body' →
      ChangesFunctionBody R body body'
  | trans {body body' body'' : Option (Block Node)} : ChangesFunctionBody R body body' →
      ChangesFunctionBody R body' body'' → ChangesFunctionBody R body body''
  | none : ChangesFunctionBody R none none
  | some {body body' : List (Option Node)} {span : Span} : ChangesStatements R body body' →
      ChangesFunctionBody R (some ⟨body, span⟩) (some ⟨body', span⟩)

end

end Rewrite

end Scaffold
