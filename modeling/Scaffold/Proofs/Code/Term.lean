import Scaffold.Code.Expression
import Scaffold.Proofs.Code.Phrase

/-!
# Terms

A *term* is an expression of words with binary operators, signs, accesses and
calls.  Its tree has any spans, since the text of an expression does not depend
on them (`expression_eraseSpans`).

A term is written as a phrase (`Term.toList_expression`), and the text of a
phrase is uniquely readable.  So two terms have the same text exactly when they
are written as the same phrase.

* `expression_eq_iff`: trees of terms have the same text exactly when the phrases
  of the terms are the same.
-/

namespace Scaffold

/-! ## Spans -/

mutual

/-- A node with its span and those below it set to zero. -/
def Node.eraseSpans : Node → Node
  | .program body sourceType _ => .program (Node.eraseSpansList body) sourceType {}
  | .expressionStatement expression _ => .expressionStatement (Node.eraseSpans? expression) {}
  | .returnStatement argument _ => .returnStatement (Node.eraseSpans? argument) {}
  | .blockStatement ⟨body, _⟩ => .blockStatement ⟨Node.eraseSpansList body, {}⟩
  | .ifStatement test consequent alternate _ =>
    .ifStatement (Node.eraseSpans? test) (Node.eraseSpans? consequent)
      (Node.eraseSpans? alternate) {}
  | .forStatement init test update body _ =>
    .forStatement (Node.eraseSpans? init) (Node.eraseSpans? test) (Node.eraseSpans? update)
      (Node.eraseSpans? body) {}
  | .whileStatement test body _ =>
    .whileStatement (Node.eraseSpans? test) (Node.eraseSpans? body) {}
  | .breakStatement _ => .breakStatement {}
  | .continueStatement _ => .continueStatement {}
  | .variableDeclaration keyword declarators _ =>
    .variableDeclaration keyword (Node.eraseDeclaratorSpans declarators) {}
  | .variableDeclarator ⟨id, init, _⟩ =>
    .variableDeclarator ⟨Node.eraseSpans? id, Node.eraseSpans? init, {}⟩
  | .functionDeclaration id params body _ =>
    .functionDeclaration (id.map fun i => { i with span := {} }) (Node.eraseSpansList params)
      (Node.eraseBlockSpans? body) {}
  | .literal value raw _ => .literal value raw {}
  | .identifier i => .identifier { i with span := {} }
  | .binaryExpression operator left right _ =>
    .binaryExpression operator (Node.eraseSpans? left) (Node.eraseSpans? right) {}
  | .logicalExpression operator left right _ =>
    .logicalExpression operator (Node.eraseSpans? left) (Node.eraseSpans? right) {}
  | .unaryExpression operator isPrefix argument _ =>
    .unaryExpression operator isPrefix (Node.eraseSpans? argument) {}
  | .memberExpression object property computed _ =>
    .memberExpression (Node.eraseSpans? object) (Node.eraseSpans? property) computed {}
  | .callExpression callee arguments _ =>
    .callExpression (Node.eraseSpans? callee) (Node.eraseSpansList arguments) {}
  | .arrayExpression elements _ => .arrayExpression (Node.eraseSpansList elements) {}
  | .updateExpression operator isPrefix argument _ =>
    .updateExpression operator isPrefix (Node.eraseSpans? argument) {}
  | .assignmentExpression operator left right _ =>
    .assignmentExpression operator (Node.eraseSpans? left) (Node.eraseSpans? right) {}
  | .unknown type _ => .unknown type {}

/-- A child without spans. -/
def Node.eraseSpans? : Option Node → Option Node
  | none => none
  | some n => some n.eraseSpans

/-- The children in a list without spans. -/
def Node.eraseSpansList : List (Option Node) → List (Option Node)
  | [] => []
  | c :: cs => Node.eraseSpans? c :: Node.eraseSpansList cs

/-- Declarators without spans. -/
def Node.eraseDeclaratorSpans : List (Declarator Node) → List (Declarator Node)
  | [] => []
  | ⟨id, init, _⟩ :: ds =>
    ⟨Node.eraseSpans? id, Node.eraseSpans? init, {}⟩ :: Node.eraseDeclaratorSpans ds

/-- The body of a function without spans. -/
def Node.eraseBlockSpans? : Option (Block Node) → Option (Block Node)
  | none => none
  | some ⟨body, _⟩ => some ⟨Node.eraseSpansList body, {}⟩

end

namespace Code

theorem isOperation_eraseSpans : ∀ c : Option Node, isOperation (Node.eraseSpans? c) = isOperation c
  | none => rfl
  | some n => by cases n <;> rfl

mutual

/-- The text of an expression does not depend on spans. -/
theorem expression_eraseSpans (place : Place) :
    ∀ n : Node, expression place n.eraseSpans = expression place n
  | .program .. | .expressionStatement .. | .returnStatement .. | .blockStatement ⟨_, _⟩
  | .ifStatement .. | .forStatement .. | .whileStatement .. | .breakStatement _
  | .continueStatement _ | .variableDeclaration .. | .variableDeclarator ⟨_, _, _⟩
  | .functionDeclaration .. | .literal .. | .identifier _ | .unknown .. => rfl
  | .binaryExpression operator left right _ => by
    rw [Node.eraseSpans, expression, expression, expression?_eraseSpans .operand left,
      expression?_eraseSpans .operand right]
  | .logicalExpression operator left right _ => by
    rw [Node.eraseSpans, expression, expression, expression?_eraseSpans .operand left,
      expression?_eraseSpans .operand right]
  | .unaryExpression operator isPrefix argument _ => by
    rw [Node.eraseSpans, expression, expression, expression?_eraseSpans .free argument,
      isOperation_eraseSpans]
  | .memberExpression object property computed _ => by
    rw [Node.eraseSpans, expression, expression, expression?_eraseSpans .free object,
      expression?_eraseSpans .free property]
  | .callExpression callee arguments _ => by
    rw [Node.eraseSpans, expression, expression, expression?_eraseSpans .free callee,
      expressions_eraseSpans arguments]
  | .arrayExpression elements _ => by
    rw [Node.eraseSpans, expression, expression, expressions_eraseSpans elements]
  | .updateExpression operator isPrefix argument _ => by
    rw [Node.eraseSpans, expression, expression, expression?_eraseSpans .free argument]
  | .assignmentExpression operator left right _ => by
    rw [Node.eraseSpans, expression, expression, expression?_eraseSpans .free left,
      expression?_eraseSpans .free right]

theorem expression?_eraseSpans (place : Place) :
    ∀ c : Option Node, expression? place (Node.eraseSpans? c) = expression? place c
  | none => rfl
  | some n => expression_eraseSpans place n

theorem expressions_eraseSpans :
    ∀ cs : List (Option Node), expressions (Node.eraseSpansList cs) = expressions cs
  | [] => rfl
  | c :: cs => by
    rw [Node.eraseSpansList, expressions, expressions, expression?_eraseSpans .free c,
      expressions_eraseSpans cs]

end

/-! ## Terms -/

/-- An expression of words with binary operators, signs, accesses and calls. -/
inductive Term where
  | name (word : Word)
  | binary (operator : Operator) (left right : Term)
  | unary (sign : Sign) (argument : Term)
  | member (object : Term) (property : Word)
  | call (callee : Term) (arguments : List Term)

mutual

/-- The tree of a term, without spans.  Its unary operators are prefix operators, as in any source
text.  What is written for them does not depend on that flag (`expression_unary`). -/
def Term.node : Term → Node
  | .name w => .identifier ⟨w.text, {}⟩
  | .binary operator l r =>
    .binaryExpression (String.singleton operator.char) (some l.node) (some r.node) {}
  | .unary sign t => .unaryExpression (String.singleton sign.char) true (some t.node) {}
  | .member t w => .memberExpression (some t.node) (some (.identifier ⟨w.text, {}⟩)) false {}
  | .call t ts => .callExpression (some t.node) (Term.nodes ts) {}

/-- The trees of the arguments of a call. -/
def Term.nodes : List Term → List (Option Node)
  | [] => []
  | t :: ts => some t.node :: Term.nodes ts

end

/-- A phrase as it is written in a place when it is an operation. -/
def Phrase.atPlace (p : Phrase) : Place → Phrase
  | .free => p
  | .operand => p.grouped

mutual

/-- The phrase that a term is written as. -/
def Term.phrase (place : Place) : Term → Phrase
  | .name w => .operand (.word w .nil)
  | .binary operator l r =>
    ((l.phrase .operand).joined operator (r.phrase .operand)).atPlace place
  | .unary sign t => (t.phrase .operand).signed sign
  | .member t w => (t.phrase .free).followed (.member w .nil)
  | .call t ts => (t.phrase .free).followed (.call (Term.phrases ts) .nil)

/-- The phrases that the arguments of a call are written as. -/
def Term.phrases : List Term → Arguments
  | [] => .nil
  | t :: ts => .cons (t.phrase .free) (Term.phrases ts)

end

/-! ## The text of a term -/

theorem toList_operation (place : Place) (operator : Operator) {left right : String}
    {p q : Phrase} (hleft : left.toList = p.text) (hright : right.toList = q.text) :
    (operation place (String.singleton operator.char) left right).toList
      = ((p.joined operator q).atPlace place).text := by
  have hgo : goOperator (String.singleton operator.char) = String.singleton operator.char := by
    cases operator <;> decide
  cases place <;>
    simp [operation, hgo, hleft, hright, grouped, Phrase.atPlace, Phrase.grouped, Phrase.text,
      Operand.text, Suffixes.text, Phrase.text_joined]

/-- An operand of a unary operator is written as one of a binary operator. -/
theorem expression_unary {operator : String} (h : Node.isDroppedOperator operator = false)
    (place : Place) (isPrefix : Bool) (n : Node) (span : Span) :
    expression place (.unaryExpression operator isPrefix (some n) span)
      = operator ++ expression .operand n := by
  have hoperand : (if isOperation (some n) then grouped (expression .free n)
      else expression .free n) = expression .operand n := by
    cases n <;> rfl
  rw [expression, h, ← hoperand]
  rfl

theorem expression_signed (place : Place) (sign : Sign) (n : Node) :
    expression place (.unaryExpression (String.singleton sign.char) true (some n) {})
      = String.singleton sign.char ++ expression .operand n :=
  expression_unary (by cases sign <;> decide) place true n {}

mutual

/-- A term is written as its phrase. -/
theorem Term.toList_expression (place : Place) :
    ∀ t : Term, (expression place t.node).toList = (t.phrase place).text
  | .name w => by
    simp [Term.node, expression, Term.phrase, Phrase.text, Operand.text, Suffixes.text]
  | .binary operator l r =>
    toList_operation place operator (Term.toList_expression .operand l)
      (Term.toList_expression .operand r)
  | .unary sign t => by
    rw [Term.node, expression_signed, Term.phrase, Phrase.text_signed, String.toList_append,
      String.toList_singleton, Term.toList_expression .operand t, List.singleton_append]
  | .member t w => by
    simp [Term.node, expression, expression?, Term.phrase, Phrase.text_followed, Suffixes.text,
      Term.toList_expression .free t]
  | .call t ts => by
    simp [Term.node, expression, expression?, grouped, Term.phrase, Phrase.text_followed,
      Suffixes.text, Term.toList_expression .free t, Term.toList_expressions ts]

theorem Term.toList_expressions : ∀ ts : List Term,
    (", ".intercalate (expressions (Term.nodes ts))).toList = (Term.phrases ts).text
  | [] => rfl
  | [t] => by
    simp [Term.nodes, expressions, expression?, Term.phrases, Arguments.text, Arguments.more,
      Term.toList_expression .free t]
  | t :: u :: ts => by
    have hrest := Term.toList_expressions (u :: ts)
    change (", ".intercalate (expression .free t.node :: expression .free u.node ::
        expressions (Term.nodes ts))).toList
      = (t.phrase .free).text ++ ',' :: ' ' :: (Term.phrases (u :: ts)).text
    rw [String.intercalate_cons_cons, String.toList_append, String.toList_append,
      Term.toList_expression .free t, ← hrest, List.append_assoc]
    rfl

end

/-- Trees of terms have the same text exactly when the terms are written as the same phrase. -/
theorem expression_eq_iff {t t' : Term} {n n' : Node} (hn : n.eraseSpans = t.node)
    (hn' : n'.eraseSpans = t'.node) :
    expression .free n = expression .free n' ↔ t.phrase .free = t'.phrase .free := by
  rw [← expression_eraseSpans .free n, ← expression_eraseSpans .free n', hn, hn',
    ← String.toList_inj, t.toList_expression, t'.toList_expression]
  exact ⟨Phrase.text_injective, congrArg Phrase.text⟩

end Code

end Scaffold
