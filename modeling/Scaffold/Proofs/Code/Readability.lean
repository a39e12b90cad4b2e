import Scaffold.Proofs.Code.Formula
import Scaffold.Proofs.Code.Term

/-!
# Unique readability of expressions

Expressions of names, texts, numbers, arrays, signs, operations, accesses and
calls are *readable* when only names, accesses and calls are accessed or called.
The text of a readable expression determines it, up to what is not written: the
spans, the source texts of strings, the values of numbers, the flags of unary
operations, and whether a comparison is strict.  Without all this an expression
is *canonical*.

A canonical expression is the tree of a formula (`Readable.exists_formula`), with
the text of that formula (`Formula.toList_expression`), and an expression has the
text of its canonical form (`Readable.expression_canonical`).

* `expression_eq_iff_canonical`: readable expressions have the same text exactly
  when their canonical forms are the same.
* `expression_flag`: the flag of a unary operation is not written.
-/

namespace Scaffold

/-! ## Canonical expressions -/

mutual

/-- An expression without spans, source texts of strings and values of numbers, in which strict
comparisons are loose and `flag` has been applied to the flags of unary operations.  Other nodes
are left as they are. -/
def Node.canonical (flag : Bool → Bool) : Node → Node
  | .identifier i => .identifier { i with span := {} }
  | .literal (.string text) _ _ => .literal (.string text) "" {}
  | .literal (.integer _) raw _ | .literal (.number _ _) raw _ => .literal (.integer 0) raw {}
  | .unaryExpression operator isPrefix argument _ =>
    .unaryExpression operator (flag isPrefix) (Node.canonical? flag argument) {}
  | .binaryExpression operator left right _ =>
    .binaryExpression (Code.goOperator operator) (Node.canonical? flag left)
      (Node.canonical? flag right) {}
  | .logicalExpression operator left right _ =>
    .logicalExpression operator (Node.canonical? flag left) (Node.canonical? flag right) {}
  | .memberExpression object property computed _ =>
    .memberExpression (Node.canonical? flag object) (Node.canonical? flag property) computed {}
  | .callExpression callee arguments _ =>
    .callExpression (Node.canonical? flag callee) (Node.canonicalList flag arguments) {}
  | .arrayExpression elements _ => .arrayExpression (Node.canonicalList flag elements) {}
  | n => n

/-- The canonical form of a child. -/
def Node.canonical? (flag : Bool → Bool) : Option Node → Option Node
  | none => none
  | some n => some (n.canonical flag)

/-- The canonical forms of arguments or elements. -/
def Node.canonicalList (flag : Bool → Bool) : List (Option Node) → List (Option Node)
  | [] => []
  | c :: cs => Node.canonical? flag c :: Node.canonicalList flag cs

end

/-- Whether a value is a number. -/
def Value.isNumber : Value → Bool
  | .integer _ | .number _ _ => true
  | _ => false

namespace Code

/-! ## Readable expressions -/

mutual

/-- A name with accesses and calls after it. -/
inductive Chain : Node → Prop where
  | name {name : String} {span : Span} : isName name = true → Chain (.identifier ⟨name, span⟩)
  | member {object : Node} {name : String} {nameSpan span : Span} : Chain object →
      isName name = true →
      Chain (.memberExpression (some object) (some (.identifier ⟨name, nameSpan⟩)) false span)
  | index {object property : Node} {span : Span} : Chain object → Readable property →
      Chain (.memberExpression (some object) (some property) true span)
  | call {callee : Node} {arguments : List Node} {span : Span} : Chain callee →
      (∀ a ∈ arguments, Readable a) →
      Chain (.callExpression (some callee) (arguments.map some) span)

/-- An expression in which only names, accesses and calls are accessed or called. -/
inductive Readable : Node → Prop where
  | chain {n : Node} : Chain n → Readable n
  | text {text raw : String} {span : Span} : Readable (.literal (.string text) raw span)
  | number {value : Value} {raw : String} {span : Span} : value.isNumber = true →
      isDecimal raw = true → Readable (.literal value raw span)
  | array {elements : List Node} {span : Span} : (∀ e ∈ elements, Readable e) →
      Readable (.arrayExpression (elements.map some) span)
  | unary {operator : String} {isPrefix : Bool} {argument : Node} {span : Span} :
      operator ∈ unaryOperators → Readable argument →
      Readable (.unaryExpression operator isPrefix (some argument) span)
  | logical {operator : String} {left right : Node} {span : Span} :
      operator ∈ logicalOperators → Readable left → Readable right →
      Readable (.logicalExpression operator (some left) (some right) span)
  | binary {operator : String} {left right : Node} {span : Span} :
      operator ∈ binaryOperators → Readable left → Readable right →
      Readable (.binaryExpression operator (some left) (some right) span)

end

/-! ## The text of a canonical form -/

theorem isDroppedOperator_of_mem {operator : String} (h : operator ∈ unaryOperators) :
    Node.isDroppedOperator operator = false := by
  have hkept : ∀ operator ∈ unaryOperators, Node.isDroppedOperator operator = false := by decide
  exact hkept operator h

theorem goOperator_goOperator (operator : String) :
    goOperator (goOperator operator) = goOperator operator := by
  unfold goOperator
  split
  · rfl
  · split
    · rfl
    · simp_all

theorem literalText_number {value : Value} {raw : String} (hvalue : value.isNumber = true)
    (hraw : isDecimal raw = true) : literalText value raw = raw := by
  have hne : raw ≠ "" := by
    rintro rfl
    exact absurd hraw (by decide)
  cases value with
  | integer | number => rw [literalText, if_neg hne]
  | _ => cases hvalue

theorem canonical_number {value : Value} (h : value.isNumber = true) (flag : Bool → Bool)
    (raw : String) (span : Span) :
    (Node.literal value raw span).canonical flag = .literal (.integer 0) raw {} := by
  cases value with
  | integer | number => rw [Node.canonical]
  | _ => cases h

theorem expression?_canonical? {flag : Bool → Bool} {place : Place} {n : Node}
    (h : expression place (n.canonical flag) = expression place n) :
    expression? place (Node.canonical? flag (some n)) = expression? place (some n) := h

theorem expressions_canonicalList {flag : Bool → Bool} {ns : List Node}
    (h : ∀ n ∈ ns, expression .free (n.canonical flag) = expression .free n) :
    expressions (Node.canonicalList flag (ns.map some)) = expressions (ns.map some) := by
  induction ns with
  | nil => rfl
  | cons n ns ih =>
    rw [List.forall_mem_cons] at h
    rw [List.map_cons, Node.canonicalList, expressions, expressions, ih h.2,
      expression?_canonical? h.1]

mutual

theorem Chain.expression_canonical (flag : Bool → Bool) : ∀ {n : Node}, Chain n →
    ∀ place, expression place (n.canonical flag) = expression place n
  | _, .name _, place => by
    rw [Node.canonical, expression, expression]
  | _, .member h _, place => by
    rw [Node.canonical, expression, expression,
      expression?_canonical? (h.expression_canonical flag .free)]
    rfl
  | _, .index h hproperty, place => by
    rw [Node.canonical, expression, expression,
      expression?_canonical? (h.expression_canonical flag .free),
      expression?_canonical? (hproperty.expression_canonical flag .free)]
  | _, .call h harguments, place => by
    rw [Node.canonical, expression, expression,
      expression?_canonical? (h.expression_canonical flag .free),
      expressions_canonicalList fun a ha => (harguments a ha).expression_canonical flag .free]

/-- A readable expression has the text of its canonical form. -/
theorem Readable.expression_canonical (flag : Bool → Bool) : ∀ {n : Node}, Readable n →
    ∀ place, expression place (n.canonical flag) = expression place n
  | _, .chain h, place => h.expression_canonical flag place
  | _, .text, place => by
    rw [Node.canonical, expression, expression, literalText, literalText]
  | _, .number hvalue hraw, place => by
    rw [canonical_number hvalue, expression, expression, literalText_number hvalue hraw,
      literalText_number rfl hraw]
  | _, .array helements, place => by
    rw [Node.canonical, expression, expression,
      expressions_canonicalList fun e he => (helements e he).expression_canonical flag .free]
  | _, .unary hoperator h, place => by
    have hkept := isDroppedOperator_of_mem hoperator
    rw [Node.canonical, Node.canonical?, expression_unary hkept, expression_unary hkept,
      h.expression_canonical flag .operand]
  | _, .logical _ hleft hright, place => by
    rw [Node.canonical, expression, expression,
      expression?_canonical? (hleft.expression_canonical flag .operand),
      expression?_canonical? (hright.expression_canonical flag .operand)]
  | _, .binary _ hleft hright, place => by
    rw [Node.canonical, expression, expression,
      expression?_canonical? (hleft.expression_canonical flag .operand),
      expression?_canonical? (hright.expression_canonical flag .operand)]
    simp only [operation, goOperator_goOperator]

end

/-! ## The tree of a formula -/

/-- The operation with an operator on two operands. -/
def Connective.node (operator : Connective) (left right : Node) : Node :=
  if operator.1 ∈ logicalOperators then
    .logicalExpression operator.1 (some left) (some right) {}
  else .binaryExpression operator.1 (some left) (some right) {}

mutual

/-- The tree of a formula. -/
def Formula.node : Formula → Node
  | .signed sign p => .unaryExpression (String.singleton sign.1) true (some p.node) {}
  | .operation l operator r => operator.node l.node r.node
  | .chain name ts => ts.apply (.identifier ⟨name.1, {}⟩)
  | .number digits => .literal (.integer 0) digits.1 {}
  | .quoted text => .literal (.string text) "" {}
  | .array ps => .arrayExpression ps.nodes {}

/-- A tree with the accesses and calls of a trail after it. -/
def Trail.apply : Trail → Node → Node
  | .nil, n => n
  | .member name ts, n =>
    ts.apply (.memberExpression (some n) (some (.identifier ⟨name.1, {}⟩)) false {})
  | .index p ts, n => ts.apply (.memberExpression (some n) (some p.node) true {})
  | .call ps ts, n => ts.apply (.callExpression (some n) ps.nodes {})

/-- The trees of a list. -/
def Formulas.nodes : Formulas → List (Option Node)
  | .nil => []
  | .cons p ps => some p.node :: ps.nodes

end

theorem Connective.expression_node (operator : Connective) (left right : Node) (place : Place) :
    expression place (operator.node left right)
      = operation place operator.1 (expression .operand left) (expression .operand right) := by
  rw [Connective.node]
  split <;> rw [expression, expression?, expression?]

theorem toList_operation_connective (place : Place) (operator : Connective) (left right : String) :
    (operation place operator.1 left right).toList
      = placed place (left.toList ++ ' ' :: (operator.1.toList ++ ' ' :: right.toList)) := by
  have hgo : ∀ text ∈ connectives, goOperator text = text := by decide
  cases place <;> simp [operation, grouped, placed, hgo _ operator.2]

/-- Only an operation is written in another way as an operand. -/
theorem expression_place {n : Node} (h : isOperation (some n) = false) (place : Place) :
    expression place n = expression .free n := by
  cases n with
  | binaryExpression | logicalExpression => cases h
  | _ => rfl

mutual

/-- The tree of a formula is written as the formula. -/
theorem Formula.toList_expression :
    ∀ (p : Formula) (place : Place), (expression place p.node).toList = p.text place
  | .signed sign p, place => by
    have hkept := isDroppedOperator_of_mem (List.mem_map_of_mem sign.2)
    rw [Formula.node, expression_unary hkept, String.toList_append, String.toList_singleton,
      Formula.toList_expression p .operand]
    rfl
  | .operation l operator r, place => by
    rw [Formula.node, Connective.expression_node, toList_operation_connective,
      Formula.toList_expression l .operand, Formula.toList_expression r .operand, Formula.text]
  | .chain name ts, place => by
    rw [Formula.node, Trail.toList_expression ts rfl, expression, Formula.text]
  | .number digits, place => by
    rw [Formula.node, expression, literalText_number rfl digits.2, Formula.text]
  | .quoted text, place => by
    rw [Formula.node, expression, literalText, Formula.text]
  | .array ps, place => by
    simp [Formula.node, expression, Formula.text, Formulas.toList_expressions ps]

theorem Trail.toList_expression : ∀ (ts : Trail) {n : Node}, isOperation (some n) = false →
    ∀ place, (expression place (ts.apply n)).toList = (expression .free n).toList ++ ts.text
  | .nil, n, h, place => by
    rw [Trail.apply, expression_place h, Trail.text, List.append_nil]
  | .member name ts, n, h, place => by
    rw [Trail.apply, Trail.toList_expression ts rfl]
    simp [expression, expression?, Trail.text]
  | .index p ts, n, h, place => by
    rw [Trail.apply, Trail.toList_expression ts rfl]
    simp [expression, expression?, Trail.text, Formula.toList_expression p .free]
  | .call ps ts, n, h, place => by
    rw [Trail.apply, Trail.toList_expression ts rfl]
    simp [expression, expression?, grouped, Trail.text, Formulas.toList_expressions ps]

theorem Formulas.toList_expressions : ∀ ps : Formulas,
    (", ".intercalate (expressions ps.nodes)).toList = ps.text
  | .nil => rfl
  | .cons p .nil => by
    simp [Formulas.nodes, expressions, expression?, Formulas.text, Formulas.more,
      Formula.toList_expression p .free]
  | .cons p (.cons q ps) => by
    have hrest := Formulas.toList_expressions (.cons q ps)
    rw [Formulas.nodes, expressions] at hrest
    rw [Formulas.nodes, Formulas.nodes, expressions, expressions, String.intercalate_cons_cons,
      String.toList_append, String.toList_append, hrest, expression?,
      Formula.toList_expression p .free, Formulas.text, Formulas.text, Formulas.more,
      List.append_assoc]
    rfl

end

/-! ## The formula of an expression -/

theorem canonicalList_eq_nodes {flag : Bool → Bool} {ns : List Node}
    (h : ∀ n ∈ ns, ∃ p : Formula, n.canonical flag = p.node) :
    ∃ ps : Formulas, Node.canonicalList flag (ns.map some) = ps.nodes := by
  induction ns with
  | nil => exact ⟨.nil, rfl⟩
  | cons n ns ih =>
    rw [List.forall_mem_cons] at h
    obtain ⟨⟨p, hp⟩, hns⟩ := h
    obtain ⟨ps, hps⟩ := ih hns
    refine ⟨.cons p ps, ?_⟩
    rw [List.map_cons, Node.canonicalList, Node.canonical?, hp, hps, Formulas.nodes]

theorem Connective.node_logical {operator : String} (h : operator ∈ logicalOperators)
    (left right : Node) :
    Connective.node ⟨operator, List.mem_append_left _ h⟩ left right
      = .logicalExpression operator (some left) (some right) {} :=
  if_pos h

theorem Connective.node_binary {operator : String} (h : operator ∈ binaryOperators)
    (left right : Node) :
    Connective.node ⟨goOperator operator, List.mem_append_right _ (List.mem_map_of_mem h)⟩ left
        right
      = .binaryExpression (goOperator operator) (some left) (some right) {} := by
  have hbinary : ∀ operator ∈ binaryOperators, goOperator operator ∉ logicalOperators := by decide
  exact if_neg (hbinary operator h)

mutual

/-- The canonical form of a chain with a trail after it is the tree of a formula.  A chain ends with
its last access or call, so the induction goes down to its name while the trail grows. -/
theorem Chain.exists_trail : ∀ {n : Node}, Chain n → ∀ ts : Trail,
    ∃ p : Formula, ts.apply (n.canonical fun _ => true) = p.node
  | _, @Chain.name name _ h, ts => ⟨.chain ⟨name, h⟩ ts, by rw [Node.canonical, Formula.node]⟩
  | _, @Chain.member _ name _ _ h hname, ts => by
    obtain ⟨p, hp⟩ := h.exists_trail (.member ⟨name, hname⟩ ts)
    refine ⟨p, ?_⟩
    rw [Node.canonical, Node.canonical?, Node.canonical?, Node.canonical, ← hp, Trail.apply]
  | _, .index h hproperty, ts => by
    obtain ⟨q, hq⟩ := hproperty.exists_formula
    obtain ⟨p, hp⟩ := h.exists_trail (.index q ts)
    refine ⟨p, ?_⟩
    rw [Node.canonical, Node.canonical?, Node.canonical?, hq, ← hp, Trail.apply]
  | _, .call h harguments, ts => by
    obtain ⟨qs, hqs⟩ := canonicalList_eq_nodes fun a ha => (harguments a ha).exists_formula
    obtain ⟨p, hp⟩ := h.exists_trail (.call qs ts)
    refine ⟨p, ?_⟩
    rw [Node.canonical, Node.canonical?, hqs, ← hp, Trail.apply]

/-- The canonical form of a readable expression is the tree of a formula. -/
theorem Readable.exists_formula : ∀ {n : Node}, Readable n →
    ∃ p : Formula, n.canonical (fun _ => true) = p.node
  | _, .chain h => h.exists_trail .nil
  | _, @Readable.text text _ _ => ⟨.quoted text, by rw [Node.canonical, Formula.node]⟩
  | _, @Readable.number _ raw _ hvalue hraw =>
    ⟨.number ⟨raw, hraw⟩, by rw [canonical_number hvalue, Formula.node]⟩
  | _, .array helements => by
    obtain ⟨ps, hps⟩ := canonicalList_eq_nodes fun e he => (helements e he).exists_formula
    exact ⟨.array ps, by rw [Node.canonical, hps, Formula.node]⟩
  | _, .unary hoperator h => by
    obtain ⟨sign, hsign, rfl⟩ := List.mem_map.1 hoperator
    obtain ⟨p, hp⟩ := h.exists_formula
    exact ⟨.signed ⟨sign, hsign⟩ p, by rw [Node.canonical, Node.canonical?, hp, Formula.node]⟩
  | _, .logical hoperator hleft hright => by
    obtain ⟨l, hl⟩ := hleft.exists_formula
    obtain ⟨r, hr⟩ := hright.exists_formula
    refine ⟨.operation l ⟨_, List.mem_append_left _ hoperator⟩ r, ?_⟩
    rw [Node.canonical, Node.canonical?, Node.canonical?, hl, hr, Formula.node,
      Connective.node_logical hoperator]
  | _, .binary hoperator hleft hright => by
    obtain ⟨l, hl⟩ := hleft.exists_formula
    obtain ⟨r, hr⟩ := hright.exists_formula
    refine ⟨.operation l ⟨_, List.mem_append_right _ (List.mem_map_of_mem hoperator)⟩ r, ?_⟩
    rw [Node.canonical, Node.canonical?, Node.canonical?, hl, hr, Formula.node,
      Connective.node_binary hoperator]

end

/-! ## Unique readability -/

/-- A readable expression is written as the formula of its canonical form. -/
theorem Readable.exists_text {n : Node} (h : Readable n) : ∃ p : Formula,
    n.canonical (fun _ => true) = p.node ∧ (expression .free n).toList = p.text .free := by
  obtain ⟨p, hp⟩ := h.exists_formula
  exact ⟨p, hp, by rw [← h.expression_canonical fun _ => true, hp, p.toList_expression]⟩

/-- Readable expressions have the same text exactly when they are the same up to spans, source texts
of strings, values of numbers, flags of unary operations and strictness of comparisons. -/
theorem expression_eq_iff_canonical {n n' : Node} (hn : Readable n) (hn' : Readable n') :
    expression .free n = expression .free n'
      ↔ n.canonical (fun _ => true) = n'.canonical (fun _ => true) := by
  constructor
  · intro h
    obtain ⟨p, hp, htext⟩ := hn.exists_text
    obtain ⟨p', hp', htext'⟩ := hn'.exists_text
    obtain rfl : p = p' := Formula.text_injective (by rw [← htext, h, htext'])
    exact hp.trans hp'.symm
  · intro h
    rw [← hn.expression_canonical, h, hn'.expression_canonical]

/-- Two trees of `f(x[0], "a, (b)") != -(b && {1, ""})`, which agree on all that is written. -/
theorem expression_eq_iff_canonical_comparison :
    let name (text : String) : Node := .identifier ⟨text, {}⟩
    let index (k : Int) (span : Span) : Node :=
      .memberExpression (some (name "x")) (some (.literal (.integer k) "0" span)) true {}
    let text (raw : String) : Node := .literal (.string "a, (b)") raw {}
    let call (k : Int) (raw : String) (span : Span) : Node :=
      .callExpression (some (name "f")) [some (index k span), some (text raw)] span
    let array (raw : String) : Node := .arrayExpression
      [some (.literal (.integer 1) "1" {}), some (.literal (.string "") raw {})] {}
    let tree (operator : String) (k : Int) (raw : String) (isPrefix : Bool) (span : Span) : Node :=
      .binaryExpression operator (some (call k raw span)) (some (.unaryExpression "-" isPrefix
        (some (.logicalExpression "&&" (some (name "b")) (some (array raw)) span)) {})) {}
    let n := tree "!==" 0 "'a, (b)'" true { start := ⟨1, 0⟩, stop := ⟨1, 30⟩ }
    let n' := tree "!=" 7 "" false {}
    Readable n ∧ Readable n' ∧
      expression .free n = "f(x[0], \"a, (b)\") != -(b && \x7b1, \"\"\x7d)" ∧
      expression .free n' = expression .free n ∧
      n.canonical (fun _ => true) = n'.canonical (fun _ => true) := by
  intro name index text call array tree n n'
  have hindex (k : Int) (span : Span) : Readable (index k span) :=
    .chain (.index (.name (by decide)) (.number rfl (by decide)))
  have hcall (k : Int) (raw : String) (span : Span) : Readable (call k raw span) := by
    have harguments : ∀ a ∈ [index k span, text raw], Readable a :=
      List.forall_mem_cons.2 ⟨hindex k span, List.forall_mem_singleton.2 .text⟩
    exact .chain (.call (.name (by decide)) harguments)
  have harray (raw : String) : Readable (array raw) := by
    have helements : ∀ e ∈ [Node.literal (.integer 1) "1" {}, .literal (.string "") raw {}],
        Readable e :=
      List.forall_mem_cons.2 ⟨.number rfl (by decide), List.forall_mem_singleton.2 .text⟩
    exact .array helements
  have htree {operator : String} (h : operator ∈ binaryOperators) (k : Int) (raw : String)
      (isPrefix : Bool) (span : Span) : Readable (tree operator k raw isPrefix span) :=
    .binary h (hcall k raw span)
      (.unary (by decide) (.logical (by decide) (.chain (.name (by decide))) (harray raw)))
  have hn : Readable n := htree (by decide) 0 _ true _
  have hn' : Readable n' := htree (by decide) 7 _ false _
  have htext : expression .free n' = expression .free n := rfl
  exact ⟨hn, hn', rfl, htext, (expression_eq_iff_canonical hn hn').1 htext.symm⟩

/-- The flag of a unary operation is not written: `-a` has the same text with and without it. -/
theorem expression_flag :
    let minus (isPrefix : Bool) : Node :=
      .unaryExpression "-" isPrefix (some (.identifier ⟨"a", {}⟩)) {}
    Readable (minus true) ∧ Readable (minus false) ∧
      expression .free (minus true) = expression .free (minus false) ∧
      (minus true).canonical id ≠ (minus false).canonical id := by
  intro minus
  have hminus (isPrefix : Bool) : Readable (minus isPrefix) :=
    .unary (by decide) (.chain (.name (by decide)))
  refine ⟨hminus true, hminus false, rfl, ?_⟩
  simp [minus, Node.canonical]

end Code

end Scaffold
