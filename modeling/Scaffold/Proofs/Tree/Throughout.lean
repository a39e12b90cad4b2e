import Scaffold.Tree.Traversal

/-!
# Properties throughout a tree

`Node.Throughout P` says that a property of nodes holds of a node and of all nodes
below it.  It has one constructor for all kinds of nodes, since what is below a
node is given by its children.  An induction over it therefore has one case, with
the property at hand for the node and the claim for its children.

A property that can be checked of a node can be checked throughout a tree, along
its traversal (`Node.throughout_iff_all`).

Some texts of a tree stand in code as they are: names, operators and the source
texts of numbers.  A tree *avoids* characters that are in none of them.
-/

namespace Scaffold

namespace Node

theorem sizeOf_lt_of_mem_children {n c : Node} (h : c ∈ n.children) : sizeOf c < sizeOf n := by
  have hlist {cs : List (Option Node)} (hc : some c ∈ cs) : 1 + sizeOf c < sizeOf cs := by
    have := List.sizeOf_lt_of_mem hc
    simpa using this
  cases n with
  | breakStatement | continueStatement | literal | identifier | unknown => cases h
  | program body | arrayExpression body =>
    have := hlist (by simpa [children] using h)
    simp only [program.sizeOf_spec, arrayExpression.sizeOf_spec]
    omega
  | blockStatement b =>
    obtain ⟨body, span⟩ := b
    have := hlist (by simpa [children] using h)
    simp only [blockStatement.sizeOf_spec, Block.mk.sizeOf_spec]
    omega
  | variableDeclaration keyword ds =>
    obtain ⟨d, hd, rfl⟩ : ∃ d ∈ ds, variableDeclarator d = c := by simpa [children] using h
    have := List.sizeOf_lt_of_mem hd
    simp only [variableDeclaration.sizeOf_spec, variableDeclarator.sizeOf_spec]
    omega
  | variableDeclarator d =>
    obtain ⟨id, init, span⟩ := d
    obtain rfl | rfl : id = some c ∨ init = some c := by simpa [children] using h
    all_goals simp; omega
  | functionDeclaration id params body =>
    obtain ⟨i, rfl, rfl⟩ | hparam | ⟨b, rfl, rfl⟩ :
        (∃ i, id = some i ∧ identifier i = c) ∨ some c ∈ params ∨
          ∃ b, body = some b ∧ blockStatement b = c := by
      simpa [children] using h
    · simp; omega
    · have := hlist hparam
      simp; omega
    · simp; omega
  | callExpression callee arguments =>
    obtain rfl | harg : callee = some c ∨ some c ∈ arguments := by simpa [children] using h
    · simp; omega
    · have := hlist harg
      simp; omega
  | expressionStatement e | returnStatement e | unaryExpression _ _ e | updateExpression _ _ e =>
    obtain rfl : e = some c := by simpa [children] using h
    simp; omega
  | ifStatement test consequent alternate =>
    obtain rfl | rfl | rfl : test = some c ∨ consequent = some c ∨ alternate = some c := by
      simpa [children] using h
    all_goals simp; omega
  | forStatement init test update body =>
    obtain rfl | rfl | rfl | rfl :
        init = some c ∨ test = some c ∨ update = some c ∨ body = some c := by
      simpa [children] using h
    all_goals simp; omega
  | whileStatement a b | binaryExpression _ a b | logicalExpression _ a b
  | memberExpression a b | assignmentExpression _ a b =>
    obtain rfl | rfl : a = some c ∨ b = some c := by simpa [children] using h
    all_goals simp; omega

/-- Induction over a tree by the children of its nodes. -/
@[elab_as_elim]
theorem induction_children {motive : Node → Prop}
    (step : ∀ n : Node, (∀ c ∈ n.children, motive c) → motive n) (n : Node) : motive n :=
  step n fun c _ => induction_children step c
termination_by sizeOf n
decreasing_by exact sizeOf_lt_of_mem_children ‹_›

/-- A property of a node and of all nodes below it. -/
inductive Throughout (P : Node → Prop) : Node → Prop where
  | intro {n : Node} : P n → (∀ c ∈ n.children, Throughout P c) → Throughout P n

namespace Throughout
variable {P Q : Node → Prop} {n : Node}

theorem here (h : n.Throughout P) : P n := by
  cases h with
  | intro hn _ => exact hn

theorem children (h : n.Throughout P) : ∀ c ∈ n.children, c.Throughout P := by
  cases h with
  | intro _ hbelow => exact hbelow

theorem imp (h : n.Throughout P) (hPQ : ∀ m : Node, P m → Q m) : n.Throughout Q := by
  induction h with
  | intro hn _ ih => exact .intro (hPQ _ hn) ih

theorem and (hP : n.Throughout P) (hQ : n.Throughout Q) : n.Throughout fun m => P m ∧ Q m := by
  induction hP with
  | intro hn _ ih => exact .intro ⟨hn, hQ.here⟩ fun c hc => ih c hc (hQ.children c hc)

end Throughout

end Node

/-! ## Checks -/

mutual

/-- Whether a check holds of all nodes of a traversal. -/
def Traversal.all (p : Node → Bool) : Traversal → Bool
  | .visit n children => p n && Traversal.allOf p children

/-- Whether a check holds of all nodes of several traversals. -/
def Traversal.allOf (p : Node → Bool) : List Traversal → Bool
  | [] => true
  | t :: ts => t.all p && Traversal.allOf p ts

end

namespace Node

theorem allOf_eq_true {p : Node → Bool} {ns : List Node} :
    Traversal.allOf p (ns.map traversal) = true ↔ ∀ n ∈ ns, n.traversal.all p = true := by
  induction ns with
  | nil => simp [Traversal.allOf]
  | cons n ns ih => simp [Traversal.allOf, ih]

/-- A check holds throughout a tree when it holds of all nodes of the traversal. -/
theorem throughout_iff_all {p : Node → Bool} {n : Node} :
    n.Throughout (p · = true) ↔ n.traversal.all p = true := by
  induction n using induction_children with
  | step n ih =>
    rw [traversal_eq, Traversal.all, Bool.and_eq_true, allOf_eq_true]
    constructor
    · intro h
      exact ⟨h.here, fun c hc => (ih c hc).1 (h.children c hc)⟩
    · rintro ⟨hn, hchildren⟩
      exact .intro hn fun c hc => (ih c hc).2 (hchildren c hc)

instance {P : Node → Prop} [DecidablePred P] (n : Node) : Decidable (n.Throughout P) :=
  decidable_of_iff (n.traversal.all (fun m => decide (P m)) = true) (by
    simp only [← throughout_iff_all, decide_eq_true_eq])

/-! ## Words -/

/-- The texts of a node that stand in code as they are. -/
def words : Node → List String
  | .identifier i => [i.name]
  | .literal (.integer _) raw _ | .literal (.number _ _) raw _ => [raw]
  | .binaryExpression operator .. | .logicalExpression operator .. | .unaryExpression operator ..
  | .updateExpression operator .. | .assignmentExpression operator .. => [operator]
  | _ => []

/-- No name, operator or source text of a number in a tree holds one of the given characters. -/
def Avoids (marks : List Char) : Node → Prop :=
  Throughout fun n => ∀ word ∈ n.words, ∀ c ∈ marks, c ∉ word.toList

theorem Avoids.intro {marks : List Char} {n : Node}
    (hwords : ∀ word ∈ n.words, ∀ c ∈ marks, c ∉ word.toList)
    (hchildren : ∀ c ∈ n.children, c.Avoids marks) : n.Avoids marks :=
  Throughout.intro hwords hchildren

/-- Whether no word of a node holds one of the given characters. -/
def lacksMarks (marks : List Char) (n : Node) : Bool :=
  n.words.all fun word => marks.all fun c => !word.toList.contains c

theorem avoids_iff_all {marks : List Char} {n : Node} :
    n.Avoids marks ↔ n.traversal.all (lacksMarks marks) = true := by
  rw [← throughout_iff_all]
  have hcheck (m : Node) :
      (∀ word ∈ m.words, ∀ c ∈ marks, c ∉ word.toList) ↔ lacksMarks marks m = true := by
    simp [lacksMarks]
  exact ⟨fun h => h.imp fun m => (hcheck m).1, fun h => h.imp fun m => (hcheck m).2⟩

end Node

end Scaffold
