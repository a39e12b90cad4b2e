import Scaffold.Proofs.Tree.Grammar

/-!
# Parts of nodes

A node is made of its type name, its span and its parts: texts, flags, children,
lists of children and literal values, each under the field that it is decoded
from.  `Node.parts` lists them, so that what holds of all kinds of nodes can be
said once.

`nodeOf_parts` says that entries in which every part can be read decode to the
node with these parts.
-/

namespace Scaffold

/-- A part of a node. -/
inductive Part where
  | text (text : String)
  | flag (flag : Bool)
  | child (child : Option Node)
  | children (children : List (Option Node))
  | value (value : Value)

/-- The parts of a node, under their fields. -/
def Node.parts : Node → List (Field × Part)
  | .program body sourceType _ => [(.body, .children body), (.sourceType, .text sourceType)]
  | .expressionStatement expression _ => [(.expression, .child expression)]
  | .returnStatement argument _ => [(.argument, .child argument)]
  | .blockStatement ⟨body, _⟩ => [(.body, .children body)]
  | .ifStatement test consequent alternate _ =>
    [(.test, .child test), (.consequent, .child consequent), (.alternate, .child alternate)]
  | .forStatement init test update body _ =>
    [(.init, .child init), (.test, .child test), (.update, .child update), (.body, .child body)]
  | .whileStatement test body _ => [(.test, .child test), (.body, .child body)]
  | .breakStatement _ | .continueStatement _ | .unknown _ _ => []
  | .variableDeclaration keyword declarators _ =>
    [(.kind, .text keyword),
      (.declarations, .children (declarators.map fun d => some (.variableDeclarator d)))]
  | .variableDeclarator ⟨id, init, _⟩ => [(.id, .child id), (.init, .child init)]
  | .functionDeclaration id params body _ =>
    [(.id, .child (id.map .identifier)), (.params, .children params),
      (.body, .child (body.map .blockStatement))]
  | .literal value raw _ => [(.value, .value value), (.raw, .text raw)]
  | .identifier ⟨name, _⟩ => [(.name, .text name)]
  | .binaryExpression operator left right _ | .logicalExpression operator left right _
  | .assignmentExpression operator left right _ =>
    [(.operator, .text operator), (.left, .child left), (.right, .child right)]
  | .unaryExpression operator isPrefix argument _
  | .updateExpression operator isPrefix argument _ =>
    [(.operator, .text operator), (.isPrefix, .flag isPrefix), (.argument, .child argument)]
  | .memberExpression object property computed _ =>
    [(.object, .child object), (.property, .child property), (.computed, .flag computed)]
  | .callExpression callee arguments _ =>
    [(.callee, .child callee), (.arguments, .children arguments)]
  | .arrayExpression elements _ => [(.elements, .children elements)]

/-- The nodes in a part. -/
def Part.nodes : Part → List Node
  | .child n => n.toList
  | .children ns => ns.filterMap id
  | _ => []

/-- The children of a node are the nodes in its parts. -/
theorem Node.mem_children {n c : Node} : c ∈ n.children ↔ ∃ p ∈ n.parts, c ∈ p.2.nodes := by
  cases n <;> simp [Node.children, Node.parts, Part.nodes]

/-- No field has two parts, and the type and the span are no parts. -/
theorem Node.parts_fields (n : Node) :
    (.type :: (n.parts.map Prod.fst ++ [.loc])).Nodup := by
  cases n <;> simp only [Node.parts, List.map_cons, List.map_nil] <;> decide

namespace Decode

/-- A reading that gives a part. -/
def Reads (r : Reading) : Part → Prop
  | .text t => r.value = .string t
  | .flag b => r.value = .bool b
  | .child n => r.child = .ok n
  | .children ns => (∃ js, r.value = .array js) ∧ r.children = .ok ns
  | .value v => Value.ofJson? r.value = some v

/-- What is decoded from the field of a part. -/
def Finds (es : Entries) (f : Field) : Part → Prop
  | .text t => text f es = t
  | .flag b => flag f es = b
  | .child n => child f es = .ok n
  | .children ns => children f es = .ok ns ∧ (f = .body → ∀ kind, statements kind es = .ok ns)
  | .value v => f = .value → literal es = .ok v

theorem finds_of_reads {es : Entries} (honce : (es.map Prod.fst).Nodup) {f : Field} {r : Reading}
    (hr : (f, r) ∈ es) {part : Part} (h : Reads r part) : Finds es f part := by
  have hlast := last?_once honce hr
  cases part with
  | text t => exact text_once honce hr h
  | flag b => exact flag_once honce hr h
  | child n =>
    rw [Finds, child, hlast]
    exact h
  | children ns =>
    obtain ⟨⟨js, hjs⟩, hns⟩ := h
    rw [Finds, children, hlast]
    refine ⟨hns, ?_⟩
    rintro rfl kind
    simp only [statements, hlast, hjs]
    exact hns
  | value v =>
    rintro rfl
    have hv : Value.ofJson? r.value = some v := h
    simp only [literal, hlast, hv]

theorem declarators_map (ds : List (Declarator Node)) :
    declarators (ds.map fun d => some (.variableDeclarator d)) = .ok ds := by
  induction ds with
  | nil => rfl
  | cons d ds ih =>
    rw [List.map_cons, declarators, ih]
    rfl

theorem functionName_map (id : Option Identifier) : functionName (id.map .identifier) = .ok id := by
  cases id <;> rfl

theorem functionBody_map (body : Option (Block Node)) :
    functionBody (body.map .blockStatement) = .ok body := by
  cases body <;> rfl

theorem ok_bind {α β : Type} (a : α) (f : α → Except Fault β) : (.ok a >>= f) = f a := rfl

/-- Entries that give every part of a node decode to the node. -/
theorem nodeOf_parts {n : Node} {kind : Kind} (hkind : n.kind = .inl kind) {es : Entries}
    (hparts : ∀ p ∈ n.parts, Finds es p.1 p.2) (hspan : span es = n.span) :
    nodeOf kind es = .ok n := by
  cases n <;> cases hkind <;> simp only [Node.parts, Finds, List.forall_mem_cons,
    List.not_mem_nil, false_imp_iff, implies_true, and_true, forall_const, reduceCtorEq] at hparts
  all_goals
    simp [nodeOf, hparts, hspan, Node.span, ok_bind, declarators_map, functionName_map,
      functionBody_map]

end Decode

end Scaffold
