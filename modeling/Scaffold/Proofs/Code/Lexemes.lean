import Scaffold.Code.Expression
import Scaffold.Proofs.Tree.Diagnosis

/-!
# Lexemes of expressions

The text of an expression is a row of lexemes: leaves, operators and marks.  A
leaf is the text of a name or literal, a mark is a bracket, a dot, a comma or a
space.

What an expression is made of can be said without the writer.  A node is
*reached* from an expression when all nodes above it are expressions that are
written, so that nothing is reached below an unsupported construct, a statement
or a declaration.  Addresses tell where the reached nodes are.

* `expression_lexemes`: the leaves of the text are those of the names and literals
  that are reached, in pre-order, and each operation that is reached has one
  operator in the text.
-/

namespace Scaffold

/-! ## Collecting along a traversal -/

mutual

/-- What `own` gives for the nodes of a traversal, in pre-order.  Only below the nodes that are
entered is anything collected. -/
def Traversal.collect {β : Type} (enters : Node → Bool) (own : Node → Option β) :
    Traversal → List β
  | .visit n children =>
    (own n).toList ++ if enters n then Traversal.collectAll enters own children else []

/-- What is collected along several traversals. -/
def Traversal.collectAll {β : Type} (enters : Node → Bool) (own : Node → Option β) :
    List Traversal → List β
  | [] => []
  | t :: ts => t.collect enters own ++ Traversal.collectAll enters own ts

end

/-- What `own` gives for the node at an address all of whose ancestors are entered. -/
def Node.Reaches {β : Type} (enters : Node → Bool) (own : Node → Option β) (n : Node)
    (address : List Nat) (b : β) : Prop :=
  ∃ l, n.lineage? address = some l ∧ (∀ m ∈ l.above, enters m = true) ∧ own l.node = some b

section Collect
variable {β : Type} {enters : Node → Bool} {own : Node → Option β}

theorem Traversal.collectAll_append (ts us : List Traversal) :
    Traversal.collectAll enters own (ts ++ us)
      = Traversal.collectAll enters own ts ++ Traversal.collectAll enters own us := by
  induction ts with
  | nil => rfl
  | cons t ts ih => rw [List.cons_append, collectAll, ih, collectAll, List.append_assoc]

theorem Traversal.collectAll_map (cs : List Node) :
    Traversal.collectAll enters own (cs.map Node.traversal)
      = cs.flatMap fun c => c.traversal.collect enters own := by
  induction cs with
  | nil => rfl
  | cons c cs ih => rw [List.map_cons, collectAll, ih, List.flatMap_cons]

theorem Node.reaches_nil {n : Node} {b : β} : n.Reaches enters own [] b ↔ own n = some b := by
  constructor
  · rintro ⟨l, hl, -, hb⟩
    cases hl
    exact hb
  · intro hb
    exact ⟨⟨n, []⟩, rfl, nofun, hb⟩

theorem Node.reaches_cons {n : Node} {i : Nat} {address : List Nat} {b : β} :
    n.Reaches enters own (i :: address) b ↔ enters n = true ∧
      ∃ c, n.children[i]? = some c ∧ c.Reaches enters own address b := by
  constructor
  · rintro ⟨_, hl, habove, hb⟩
    obtain ⟨c, hc, hbelow⟩ := Option.bind_eq_some_iff.1 hl
    obtain ⟨l, hlineage, rfl⟩ := Option.map_eq_some_iff.1 hbelow
    have hn : enters n = true := habove n (by simp [Lineage.under])
    exact ⟨hn, c, hc, l, hlineage, fun m hm => habove m (by simp [Lineage.under, hm]), hb⟩
  · rintro ⟨hn, c, hc, l, hl, habove, hb⟩
    refine ⟨l.under n, ?_, fun m hm => ?_, hb⟩
    · rw [lineage?, hc, Option.bind_some, hl, Option.map_some]
    · rcases List.mem_append.1 hm with hm | hm
      · exact habove m hm
      · cases List.mem_singleton.1 hm
        exact hn

/-- What is collected along a traversal stands at the addresses that are reached, each once and in
pre-order. -/
theorem Node.listed_collect (n : Node) :
    Listed (n.Reaches enters own) (n.traversal.collect enters own) := by
  induction n using Node.induction_children with
  | step n ih =>
    have hhere : Listed (fun a b => a = [] ∧ own n = some b) (own n).toList := by
      cases hown : own n with
      | none => exact .nil (by simp)
      | some b => exact .root (by simp [eq_comm])
    have hbelow : Listed (fun a b => enters n = true ∧ ∃ i address c, a = (0 + i) :: address ∧
        n.children[i]? = some c ∧ c.Reaches enters own address b)
        (if enters n then Traversal.collectAll enters own (n.children.map Node.traversal)
          else []) := by
      cases hn : enters n with
      | false => exact .nil (by simp)
      | true =>
        rw [if_pos rfl, Traversal.collectAll_map]
        exact (Listed.row ih 0).congr (by simp)
    rw [Node.traversal_eq, Traversal.collect]
    refine (hhere.append hbelow ?_).congr fun a b => ?_
    · rintro a b a' b' ⟨rfl, -⟩ ⟨-, i, address, c, rfl, -⟩
      exact .nil
    · cases a with
      | nil => simp [Node.reaches_nil]
      | cons i address => simp [Node.reaches_cons]

end Collect

/-! ## What an expression is made of -/

/-- The unary operators of operations that are not written. -/
def droppedOperators : List String := ["typeof", "void", "delete"]

/-- The operators of comparisons that are written in another way. -/
def looseOperators : List (String × String) := [("===", "=="), ("!==", "!=")]

/-- Whether a node is an expression that is written. -/
def Node.isWrittenExpression : Node → Bool
  | .literal .. | .identifier .. | .binaryExpression .. | .logicalExpression ..
  | .memberExpression .. | .callExpression .. | .arrayExpression .. | .updateExpression ..
  | .assignmentExpression .. => true
  | .unaryExpression operator .. => operator ∉ droppedOperators
  | _ => false

theorem Node.isDroppedOperator_iff {operator : String} :
    Node.isDroppedOperator operator = true ↔ operator ∈ droppedOperators := by
  simp [Node.isDroppedOperator, droppedOperators, or_assoc]

namespace Code

/-- The text of a name or literal. -/
def leafText? : Node → Option String
  | .identifier i => some i.name
  | .literal value raw _ => some (literalText value raw)
  | _ => none

/-- The operator that is written for a node. -/
def operatorText? : Node → Option String
  | .binaryExpression operator .. | .logicalExpression operator .. =>
    some ((looseOperators.lookup operator).getD operator)
  | .unaryExpression operator .. => if operator ∈ droppedOperators then none else some operator
  | .updateExpression operator .. => some operator
  | .assignmentExpression operator .. => some (if operator = "" then "=" else operator)
  | _ => none

/-- A piece of the text of an expression. -/
inductive Lexeme where
  | leaf (text : String)
  | operator (text : String)
  | mark (c : Char)
  deriving DecidableEq, Repr

namespace Lexeme

/-- The text of a lexeme. -/
def text : Lexeme → String
  | .leaf text | .operator text => text
  | .mark c => String.singleton c

/-- The text of a leaf. -/
def leaf? : Lexeme → Option String
  | .leaf text => some text
  | _ => none

/-- The text of an operator. -/
def operator? : Lexeme → Option String
  | .operator text => some text
  | _ => none

/-- The characters of marks. -/
def marks : List Char := "()[]\x7b\x7d., ".toList

end Lexeme

/-! ## Rows of lexemes -/

/-- A text is a row of lexemes, with the given leaves in this order and with the given operators in
any order. -/
def Lexed (text : String) (leaves operators : List String) : Prop :=
  ∃ lexemes : List Lexeme, text = String.join (lexemes.map Lexeme.text) ∧
    lexemes.filterMap Lexeme.leaf? = leaves ∧
    (lexemes.filterMap Lexeme.operator?).Perm operators ∧
    ∀ c, Lexeme.mark c ∈ lexemes → c ∈ Lexeme.marks

namespace Lexed
variable {s t : String} {leaves leaves' operators operators' : List String}

theorem empty : Lexed "" [] [] := ⟨[], rfl, rfl, .nil, nofun⟩

theorem leaf (s : String) : Lexed s [s] [] :=
  ⟨[.leaf s], by simp [String.join, Lexeme.text], rfl, .nil, by simp⟩

theorem operator (s : String) : Lexed s [] [s] :=
  ⟨[.operator s], by simp [String.join, Lexeme.text], rfl, .refl _, by simp⟩

/-- A text of marks. -/
theorem marked {s : String} (h : s.toList ⊆ Lexeme.marks) : Lexed s [] [] := by
  refine ⟨s.toList.map Lexeme.mark, ?_, ?_, ?_, ?_⟩
  · rw [← String.toList_inj]
    simp [Lexeme.text, List.flatMap_map]
  · simp [Lexeme.leaf?]
  · simp [Lexeme.operator?]
  · intro c hc
    obtain ⟨d, hd, heq⟩ := List.mem_map.1 hc
    cases heq
    exact h hd

theorem append (hs : Lexed s leaves operators) (ht : Lexed t leaves' operators') :
    Lexed (s ++ t) (leaves ++ leaves') (operators ++ operators') := by
  obtain ⟨row, rfl, rfl, hrow, hmarks⟩ := hs
  obtain ⟨row', rfl, rfl, hrow', hmarks'⟩ := ht
  refine ⟨row ++ row', ?_, ?_, ?_, fun c hc => ?_⟩
  · rw [List.map_append, String.join_append]
  · rw [List.filterMap_append]
  · rw [List.filterMap_append]
    exact hrow.append hrow'
  · exact (List.mem_append.1 hc).elim (hmarks c) (hmarks' c)

theorem congr (hs : Lexed s leaves operators) (hleaves : leaves = leaves')
    (hoperators : operators.Perm operators') : Lexed s leaves' operators' := by
  obtain ⟨row, htext, rfl, hrow, hmarks⟩ := hs
  exact ⟨row, htext, hleaves, hrow.trans hoperators, hmarks⟩

/-- A text between two marks. -/
theorem enclosed (hs : Lexed s leaves operators) {opening closing : String}
    (hopening : opening.toList ⊆ Lexeme.marks) (hclosing : closing.toList ⊆ Lexeme.marks) :
    Lexed (opening ++ s ++ closing) leaves operators :=
  (((marked hopening).append hs).append (marked hclosing)).congr (by simp) (by simp)

/-- An operator between two texts. -/
theorem infixed (hs : Lexed s leaves operators) (ht : Lexed t leaves' operators')
    (symbol : String) :
    Lexed (s ++ " " ++ symbol ++ " " ++ t) (leaves ++ leaves')
      (symbol :: (operators ++ operators')) := by
  have hspace : Lexed " " [] [] := marked (by decide)
  have hrow := (((hs.append hspace).append (operator symbol)).append hspace).append ht
  exact hrow.congr (by simp) (by simp)

end Lexed

/-! ## Expressions -/

/-- The leaves that are reached along traversals. -/
abbrev leavesOf : List Traversal → List String :=
  Traversal.collectAll Node.isWrittenExpression leafText?

/-- The operators of the nodes that are reached along traversals. -/
abbrev operatorsOf : List Traversal → List String :=
  Traversal.collectAll Node.isWrittenExpression operatorText?

/-- A node is written with the leaves and the operators that are reached from it. -/
def IsLexed (n : Node) : Prop :=
  ∀ place, Lexed (expression place n) (leavesOf [n.traversal]) (operatorsOf [n.traversal])

theorem lexed_child {child : Option Node} (h : ∀ c ∈ child.toList, IsLexed c) (place : Place) :
    Lexed (expression? place child) (leavesOf (Node.traversal? child))
      (operatorsOf (Node.traversal? child)) := by
  cases child with
  | none => exact .empty
  | some c => exact h c List.mem_cons_self place

theorem lexed_list {cs : List (Option Node)} (h : ∀ c ∈ cs.filterMap id, IsLexed c) :
    Lexed (", ".intercalate (expressions cs)) (leavesOf (Node.traversals cs))
      (operatorsOf (Node.traversals cs)) := by
  induction cs with
  | nil => exact .empty
  | cons child cs ih =>
    have hfirst : Lexed (expression? .free child) (leavesOf (Node.traversal? child))
        (operatorsOf (Node.traversal? child)) := by
      refine lexed_child (fun c hc => h c ?_) .free
      cases child with
      | none => cases hc
      | some c' => simpa [eq_comm] using Or.inl (List.mem_singleton.1 hc)
    have hrest := ih fun c hc => h c (by
      rw [List.mem_filterMap] at hc ⊢
      exact hc.imp fun _ hd => ⟨List.mem_cons_of_mem _ hd.1, hd.2⟩)
    rw [Node.traversals, leavesOf, operatorsOf, Traversal.collectAll_append,
      Traversal.collectAll_append]
    cases cs with
    | nil =>
      rw [expressions, expressions, String.intercalate_singleton]
      exact hfirst.congr (List.append_nil _).symm (by simp [Node.traversals, Traversal.collectAll])
    | cons next cs =>
      rw [expressions, expressions, String.intercalate_cons_cons, ← expressions]
      have hcomma : Lexed ", " [] [] := .marked (by decide)
      exact ((hfirst.append hcomma).append hrest).congr (by simp) (by simp)

theorem grouped_lexed {s : String} {leaves operators : List String}
    (h : Lexed s leaves operators) : Lexed (grouped s) leaves operators :=
  h.enclosed (by decide) (by decide)

theorem operation_lexed {left right : String} {leaves leaves' operators operators' : List String}
    (hleft : Lexed left leaves operators) (hright : Lexed right leaves' operators')
    (place : Place) (operator : String) :
    Lexed (operation place operator left right) (leaves ++ leaves')
      ((looseOperators.lookup operator).getD operator :: (operators ++ operators')) := by
  have hoperator : goOperator operator = (looseOperators.lookup operator).getD operator := by
    rw [goOperator]
    split_ifs with hequal hdistinct
    · rw [hequal]
      rfl
    · rw [hdistinct]
      rfl
    · simp only [looseOperators, List.lookup_cons, List.lookup_nil, beq_false_of_ne hequal,
        beq_false_of_ne hdistinct, Option.getD_none]
  have htext := hleft.infixed hright (goOperator operator)
  rw [← hoperator]
  cases place with
  | free => exact htext
  | operand => exact grouped_lexed htext

/-- A node that is written adds its own leaf or operator to what is reached below it. -/
theorem lexed_node {n : Node} {ts : List Traversal} {s : String}
    (hn : n.traversal = .visit n ts) (hwritten : n.isWrittenExpression = true)
    (h : Lexed s ((leafText? n).toList ++ leavesOf ts)
      ((operatorText? n).toList ++ operatorsOf ts)) :
    Lexed s (leavesOf [n.traversal]) (operatorsOf [n.traversal]) := by
  simp only [leavesOf, operatorsOf, hn, Traversal.collectAll, Traversal.collect, hwritten, if_true,
    List.append_nil]
  exact h

/-- Every node is written with what is reached from it, by induction over the tree. -/
theorem isLexed (n : Node) : IsLexed n := by
  induction n using Node.induction_children with
  | step n ih =>
    intro place
    cases n with
    | literal value raw span => exact .leaf _
    | identifier i => exact .leaf _
    | binaryExpression operator left right span | logicalExpression operator left right span =>
      have hleft := lexed_child (fun c hc => ih c (List.mem_append_left _ hc)) .operand
      have hright := lexed_child (fun c hc => ih c (List.mem_append_right _ hc)) .operand
      refine lexed_node rfl rfl ?_
      rw [leavesOf, operatorsOf, Traversal.collectAll_append, Traversal.collectAll_append]
      exact operation_lexed hleft hright place operator
    | assignmentExpression operator left right span =>
      have hleft := lexed_child (fun c hc => ih c (List.mem_append_left _ hc)) .free
      have hright := lexed_child (fun c hc => ih c (List.mem_append_right _ hc)) .free
      refine lexed_node rfl rfl ?_
      rw [leavesOf, operatorsOf, Traversal.collectAll_append, Traversal.collectAll_append]
      exact hleft.infixed hright _
    | unaryExpression operator isPrefix argument span =>
      have hargument := lexed_child ih .free
      rw [expression]
      by_cases hdropped : operator ∈ droppedOperators
      · rw [if_pos (Node.isDroppedOperator_iff.2 hdropped)]
        simp [leavesOf, operatorsOf, Traversal.collectAll, Node.traversal, Traversal.collect,
          Node.isWrittenExpression, leafText?, operatorText?, hdropped, Lexed.empty]
      · rw [if_neg (mt Node.isDroppedOperator_iff.1 hdropped)]
        refine lexed_node rfl (decide_eq_true hdropped) ?_
        simp only [operatorText?, hdropped, if_false]
        refine (Lexed.operator operator).append ?_
        split
        · exact grouped_lexed hargument
        · exact hargument
    | updateExpression operator isPrefix argument span =>
      have hargument := lexed_child ih .free
      refine lexed_node rfl rfl ?_
      cases isPrefix with
      | true => exact (Lexed.operator operator).append hargument
      | false =>
        exact (hargument.append (.operator operator)).congr (List.append_nil _)
          List.perm_append_comm
    | memberExpression object property computed span =>
      have hobject := lexed_child (fun c hc => ih c (List.mem_append_left _ hc)) .free
      have hproperty := lexed_child (fun c hc => ih c (List.mem_append_right _ hc)) .free
      refine lexed_node rfl rfl ?_
      rw [leavesOf, operatorsOf, Traversal.collectAll_append, Traversal.collectAll_append]
      cases computed with
      | true =>
        have hindex : Lexed ("[" ++ expression? .free property ++ "]") _ _ :=
          hproperty.enclosed (by decide) (by decide)
        rw [expression]
        simp only [if_true, String.append_assoc] at hindex ⊢
        exact hobject.append hindex
      | false =>
        have hdot : Lexed "." [] [] := .marked (by decide)
        have htext := (hobject.append hdot).append hproperty
        rwa [List.append_nil, List.append_nil] at htext
    | callExpression callee arguments span =>
      have hcallee := lexed_child (fun c hc => ih c (List.mem_append_left _ hc)) .free
      have harguments := lexed_list fun c hc => ih c (List.mem_append_right _ hc)
      refine lexed_node rfl rfl ?_
      rw [leavesOf, operatorsOf, Traversal.collectAll_append, Traversal.collectAll_append]
      exact hcallee.append (grouped_lexed harguments)
    | arrayExpression elements span =>
      have helements := lexed_list ih
      refine lexed_node rfl rfl ?_
      exact helements.enclosed (by decide) (by decide)
    | _ => exact .empty

/-- The text of an expression, whatever its parent, is a row of lexemes.  The leaves among them are
the texts of the names and literals that are reached, in pre-order.  The operators among them are
those of the operations that are reached, one for each, and everything else is a mark. -/
theorem expression_lexemes (parent : Option Node) (e : Node) :
    ∃ lexemes : List Lexeme,
      expression (placeUnder parent) e = String.join (lexemes.map Lexeme.text) ∧
      Listed (e.Reaches Node.isWrittenExpression leafText?) (lexemes.filterMap Lexeme.leaf?) ∧
      (∃ operators, Listed (e.Reaches Node.isWrittenExpression operatorText?) operators ∧
        (lexemes.filterMap Lexeme.operator?).Perm operators) ∧
      ∀ c, Lexeme.mark c ∈ lexemes → c ∈ "()[]\x7b\x7d., ".toList := by
  obtain ⟨lexemes, htext, hleaves, hoperators, hmarks⟩ := isLexed e (placeUnder parent)
  have hcollect {β : Type} (own : Node → Option β) :
      Traversal.collectAll Node.isWrittenExpression own [e.traversal]
        = e.traversal.collect Node.isWrittenExpression own := by
    rw [Traversal.collectAll, Traversal.collectAll, List.append_nil]
  refine ⟨lexemes, htext, ?_, ⟨_, ?_, hoperators⟩, hmarks⟩
  · rw [hleaves, leavesOf, hcollect]
    exact e.listed_collect
  · rw [operatorsOf, hcollect]
    exact e.listed_collect

end Code

end Scaffold
