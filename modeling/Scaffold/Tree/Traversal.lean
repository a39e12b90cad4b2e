import Scaffold.Tree.Node

/-!
# Traversal of syntax trees

The traversal of a node is the node together with the traversals of its
children, in source order.  Listings of a tree recurse on the traversal, which
has one shape of node, and need not know the twenty-three constructors.
-/

namespace Scaffold

/-- A node with the traversals of its children. -/
inductive Traversal where
  | visit (node : Node) (children : List Traversal)

mutual

/-- The traversal of a node. -/
def Node.traversal : Node → Traversal
  | n@(.program body _ _) => .visit n (Node.traversals body)
  | n@(.expressionStatement expression _) => .visit n (Node.traversal? expression)
  | n@(.returnStatement argument _) => .visit n (Node.traversal? argument)
  | n@(.blockStatement ⟨body, _⟩) => .visit n (Node.traversals body)
  | n@(.ifStatement test consequent alternate _) =>
    .visit n (Node.traversal? test ++ Node.traversal? consequent ++ Node.traversal? alternate)
  | n@(.forStatement init test update body _) =>
    .visit n (Node.traversal? init ++ Node.traversal? test ++ Node.traversal? update
      ++ Node.traversal? body)
  | n@(.whileStatement test body _) => .visit n (Node.traversal? test ++ Node.traversal? body)
  | n@(.breakStatement _) => .visit n []
  | n@(.continueStatement _) => .visit n []
  | n@(.variableDeclaration _ declarators _) => .visit n (Node.declaratorTraversals declarators)
  | n@(.variableDeclarator ⟨id, init, _⟩) => .visit n (Node.traversal? id ++ Node.traversal? init)
  | n@(.functionDeclaration id params body _) =>
    .visit n ((id.map fun i => Traversal.visit (.identifier i) []).toList ++ Node.traversals params
      ++ Node.blockTraversal? body)
  | n@(.literal _ _ _) => .visit n []
  | n@(.identifier _) => .visit n []
  | n@(.binaryExpression _ left right _) =>
    .visit n (Node.traversal? left ++ Node.traversal? right)
  | n@(.logicalExpression _ left right _) =>
    .visit n (Node.traversal? left ++ Node.traversal? right)
  | n@(.unaryExpression _ _ argument _) => .visit n (Node.traversal? argument)
  | n@(.memberExpression object property _ _) =>
    .visit n (Node.traversal? object ++ Node.traversal? property)
  | n@(.callExpression callee arguments _) =>
    .visit n (Node.traversal? callee ++ Node.traversals arguments)
  | n@(.arrayExpression elements _) => .visit n (Node.traversals elements)
  | n@(.updateExpression _ _ argument _) => .visit n (Node.traversal? argument)
  | n@(.assignmentExpression _ left right _) =>
    .visit n (Node.traversal? left ++ Node.traversal? right)
  | n@(.unknown _ _) => .visit n []

/-- The traversal of a child, none when it is absent. -/
def Node.traversal? : Option Node → List Traversal
  | none => []
  | some n => [n.traversal]

/-- The traversals of the children in a list that are present. -/
def Node.traversals : List (Option Node) → List Traversal
  | [] => []
  | child :: rest => Node.traversal? child ++ Node.traversals rest

/-- The traversals of declarators. -/
def Node.declaratorTraversals : List (Declarator Node) → List Traversal
  | [] => []
  | ⟨id, init, span⟩ :: rest =>
    .visit (.variableDeclarator ⟨id, init, span⟩) (Node.traversal? id ++ Node.traversal? init)
      :: Node.declaratorTraversals rest

/-- The traversal of a function body, none when it is absent. -/
def Node.blockTraversal? : Option (Block Node) → List Traversal
  | none => []
  | some ⟨body, span⟩ => [.visit (.blockStatement ⟨body, span⟩) (Node.traversals body)]

end

/-! ## Traversals and children -/

theorem Node.traversal?_eq (n : Option Node) :
    Node.traversal? n = n.toList.map Node.traversal := by
  cases n <;> rfl

theorem Node.traversals_eq : ∀ ns : List (Option Node),
    Node.traversals ns = (ns.filterMap id).map Node.traversal
  | [] => rfl
  | none :: ns => by simp [Node.traversals, Node.traversal?, Node.traversals_eq ns]
  | some n :: ns => by simp [Node.traversals, Node.traversal?, Node.traversals_eq ns]

theorem Node.declaratorTraversals_eq : ∀ ds : List (Declarator Node),
    Node.declaratorTraversals ds = (ds.map Node.variableDeclarator).map Node.traversal
  | [] => rfl
  | ⟨_, _, _⟩ :: ds => by
    simp [Node.declaratorTraversals, Node.traversal, Node.declaratorTraversals_eq ds]

theorem Node.blockTraversal?_eq : ∀ b : Option (Block Node),
    Node.blockTraversal? b = (b.map Node.blockStatement).toList.map Node.traversal
  | none => rfl
  | some ⟨_, _⟩ => rfl

/-- A traversal visits the node and then its children. -/
theorem Node.traversal_eq (n : Node) : n.traversal = .visit n (n.children.map Node.traversal) := by
  cases n with
  | functionDeclaration name params body span =>
    cases name <;>
      simp [Node.traversal, Node.children, Node.traversals_eq, Node.blockTraversal?_eq]
  | _ =>
    simp [Node.traversal, Node.children, Node.traversals_eq, Node.traversal?_eq,
      Node.declaratorTraversals_eq]

end Scaffold
