import Mathlib.Data.List.Forall2
import Scaffold.Diagnostic
import Scaffold.Proofs.Tree.Throughout

/-!
# What a diagnosis reports

The place of a node in a tree is given by its address, the indices of the
children on the way down from the root.  The *lineage* of an address is the node
there together with its ancestors, the nearest first.  Two addresses are in
pre-order when the first comes before the second in the lexicographic order, so
that a node comes before everything below it and a child before the children to
its right.

A diagnosis walks over the tree with a span that it hands down and a list that
it collects.  Here the same list is described address by address.  A node is
reported when it is unsupported and none of its ancestors is, with the span of
the first node of its lineage that has one.

* `diagnose_outermost`: the diagnostics of a tree are those of the addresses with
  such a node, each once and in pre-order.
-/

namespace Scaffold

/-! ## Listings in pre-order -/

/-- The items `bs` are those that `R` assigns to addresses, one for each address and in
pre-order. -/
def Listed {β : Type} (R : List Nat → β → Prop) (bs : List β) : Prop :=
  ∃ addresses : List (List Nat), addresses.Pairwise (List.Lex (· < ·)) ∧
    (∀ a, a ∈ addresses ↔ ∃ b, R a b) ∧ List.Forall₂ R addresses bs

namespace Listed
variable {β : Type} {R S : List Nat → β → Prop} {bs cs : List β}

theorem nil (h : ∀ a b, ¬ R a b) : Listed R [] :=
  ⟨[], .nil, fun a => by simp [h], .nil⟩

theorem root {b : β} (h : ∀ a b', R a b' ↔ a = [] ∧ b' = b) : Listed R [b] :=
  ⟨[[]], List.pairwise_singleton _ _, fun a => by simp [h], .cons ((h [] b).2 ⟨rfl, rfl⟩) .nil⟩

theorem congr (h : Listed R bs) (hRS : ∀ a b, R a b ↔ S a b) : Listed S bs := by
  have heq : R = S := by
    funext a b
    exact propext (hRS a b)
  exact heq ▸ h

/-- Addresses below the child with an index. -/
theorem below (h : Listed R bs) (i : Nat) : Listed (fun a b => ∃ a', a = i :: a' ∧ R a' b) bs := by
  obtain ⟨addresses, hsorted, hmem, hitems⟩ := h
  refine ⟨addresses.map (i :: ·), ?_, fun a => ?_, ?_⟩
  · exact List.pairwise_map.2 (hsorted.imp .cons)
  · simp only [List.mem_map, hmem]
    constructor
    · rintro ⟨a', ⟨b, hb⟩, rfl⟩
      exact ⟨b, a', rfl, hb⟩
    · rintro ⟨b, a', rfl, hb⟩
      exact ⟨a', ⟨b, hb⟩, rfl⟩
  · exact List.forall₂_map_left_iff.2 (hitems.imp fun a b hb => ⟨a, rfl, hb⟩)

/-- Items at addresses that come after those of other items. -/
theorem append (hR : Listed R bs) (hS : Listed S cs)
    (hlt : ∀ a b a' b', R a b → S a' b' → List.Lex (· < ·) a a') :
    Listed (fun a b => R a b ∨ S a b) (bs ++ cs) := by
  obtain ⟨addresses, hsorted, hmem, hitems⟩ := hR
  obtain ⟨addresses', hsorted', hmem', hitems'⟩ := hS
  refine ⟨addresses ++ addresses', ?_, fun a => ?_, ?_⟩
  · refine List.pairwise_append.2 ⟨hsorted, hsorted', fun a ha a' ha' => ?_⟩
    obtain ⟨b, hb⟩ := (hmem a).1 ha
    obtain ⟨b', hb'⟩ := (hmem' a').1 ha'
    exact hlt a b a' b' hb hb'
  · rw [List.mem_append, hmem, hmem', exists_or]
  · exact List.rel_append (hitems.imp fun _ _ => .inl) (hitems'.imp fun _ _ => .inr)

/-- Items of children in a row, whose indices begin with `k`. -/
theorem row {γ : Type} {cs : List γ} {R : γ → List Nat → β → Prop} {items : γ → List β}
    (h : ∀ c ∈ cs, Listed (R c) (items c)) (k : Nat) :
    Listed (fun a b => ∃ i address c, a = (k + i) :: address ∧ cs[i]? = some c ∧ R c address b)
      (cs.flatMap items) := by
  induction cs generalizing k with
  | nil => exact .nil (by simp)
  | cons c cs ih =>
    rw [List.forall_mem_cons] at h
    have hfirst := h.1.below k
    have hrest := ih h.2 (k + 1)
    rw [List.flatMap_cons]
    refine (hfirst.append hrest ?_).congr fun a b => ?_
    · rintro a b a' b' ⟨address, rfl, -⟩ ⟨i, address', c', rfl, -⟩
      exact .rel (by omega)
    · constructor
      · rintro (⟨address, rfl, hb⟩ | ⟨i, address, c', rfl, hc', hb⟩)
        · exact ⟨0, address, c, rfl, rfl, hb⟩
        · exact ⟨i + 1, address, c', by rw [Nat.add_right_comm, Nat.add_assoc], hc', hb⟩
      · rintro ⟨i, address, c', rfl, hc', hb⟩
        cases i with
        | zero =>
          cases hc'
          exact .inl ⟨address, rfl, hb⟩
        | succ i => exact .inr ⟨i, address, c', by rw [Nat.add_right_comm, Nat.add_assoc], hc', hb⟩

end Listed

/-! ## Lineages -/

/-- A node with its ancestors, the nearest first. -/
structure Lineage where
  /-- The node. -/
  node : Node
  /-- Its ancestors. -/
  above : List Node

namespace Lineage

/-- A lineage with one more ancestor above all others. -/
def under (l : Lineage) (n : Node) : Lineage := ⟨l.node, l.above ++ [n]⟩

/-- The span of the first node of a lineage that has one, or else an outer one. -/
def span (outer : Span) (l : Lineage) : Span :=
  match (l.node :: l.above).find? fun m => !m.span.isZero with
  | some m => m.span
  | none => outer

theorem span_alone (outer : Span) (n : Node) : span outer ⟨n, []⟩ = n.spanWithin outer := by
  rw [span, Node.spanWithin]
  cases h : n.span.isZero <;> simp [h]

theorem span_under (outer : Span) (l : Lineage) (n : Node) :
    (l.under n).span outer = l.span (n.spanWithin outer) := by
  rw [span, span, under, ← List.cons_append, List.find?_append, Node.spanWithin]
  cases (l.node :: l.above).find? fun m => !m.span.isZero with
  | some m => rfl
  | none => cases h : n.span.isZero <;> simp [h]

end Lineage

namespace Node

/-- The lineage of an address below a node, if there is a node at the address. -/
def lineage? (n : Node) : List Nat → Option Lineage
  | [] => some ⟨n, []⟩
  | i :: address => n.children[i]?.bind fun c => (c.lineage? address).map (·.under n)

/-- An unsupported node with the name under which it is reported. -/
inductive Unsupported : Node → String → Prop where
  | unknown {type : String} {span : Span} : Unsupported (.unknown type span) type
  | unary {operator : String} {isPrefix : Bool} {argument : Option Node} {span : Span} :
      operator ∈ ["typeof", "void", "delete"] →
      Unsupported (.unaryExpression operator isPrefix argument span)
        ("UnaryExpression(" ++ operator ++ ")")

/-- The diagnostic of an address below a node, where `outer` is the span around the node. -/
def Reports (outer : Span) (n : Node) (address : List Nat) (d : Diagnostic) : Prop :=
  ∃ l, n.lineage? address = some l ∧ Unsupported l.node d.kind ∧
    (∀ m ∈ l.above, ∀ name, ¬ Unsupported m name) ∧ d.span = l.span outer

theorem unsupported_iff {n : Node} {name : String} :
    Unsupported n name ↔ n.isUnsupported = true ∧ name = n.constructName := by
  constructor
  · intro h
    cases h with
    | unknown => exact ⟨rfl, rfl⟩
    | unary hoperator =>
      exact ⟨by simpa [isUnsupported, isDroppedOperator, or_assoc] using hoperator, rfl⟩
  · rintro ⟨h, rfl⟩
    cases n with
    | unknown type span => exact .unknown
    | unaryExpression operator isPrefix argument span =>
      exact .unary (by simpa [isUnsupported, isDroppedOperator, or_assoc] using h)
    | _ => cases h

theorem forall_not_unsupported {n : Node} :
    (∀ name, ¬ Unsupported n name) ↔ n.isUnsupported = false := by
  simp [unsupported_iff]

/-! ## Reports of a node and of its children -/

theorem reports_nil {outer : Span} {n : Node} {d : Diagnostic} :
    n.Reports outer [] d ↔ Unsupported n d.kind ∧ d.span = n.spanWithin outer := by
  constructor
  · rintro ⟨l, hl, hkind, -, hspan⟩
    cases hl
    exact ⟨hkind, hspan.trans (Lineage.span_alone outer n)⟩
  · rintro ⟨hkind, hspan⟩
    exact ⟨⟨n, []⟩, rfl, hkind, nofun, hspan.trans (Lineage.span_alone outer n).symm⟩

theorem reports_cons {outer : Span} {n : Node} {i : Nat} {address : List Nat} {d : Diagnostic} :
    n.Reports outer (i :: address) d ↔ n.isUnsupported = false ∧
      ∃ c, n.children[i]? = some c ∧ c.Reports (n.spanWithin outer) address d := by
  constructor
  · rintro ⟨_, hl, hkind, habove, hspan⟩
    obtain ⟨c, hc, hbelow⟩ := Option.bind_eq_some_iff.1 hl
    obtain ⟨l, hlineage, rfl⟩ := Option.map_eq_some_iff.1 hbelow
    have hnode : n.isUnsupported = false :=
      forall_not_unsupported.1 (habove n (by simp [Lineage.under]))
    refine ⟨hnode, c, hc, l, hlineage, hkind, fun m hm => ?_, ?_⟩
    · exact habove m (by simp [Lineage.under, hm])
    · exact hspan.trans (l.span_under outer n)
  · rintro ⟨hnode, c, hc, l, hl, hkind, habove, hspan⟩
    refine ⟨l.under n, ?_, hkind, fun m hm => ?_, hspan.trans (l.span_under outer n).symm⟩
    · rw [lineage?, hc, Option.bind_some, hl, Option.map_some]
    · rcases List.mem_append.1 hm with hm | hm
      · exact habove m hm
      · cases List.mem_singleton.1 hm
        exact forall_not_unsupported.2 hnode

end Node

theorem Traversal.diagnoseAll_map (outer : Span) (cs : List Node) :
    Traversal.diagnoseAll outer (cs.map Node.traversal)
      = cs.flatMap fun c => c.traversal.diagnose outer := by
  induction cs with
  | nil => rfl
  | cons c cs ih => rw [List.map_cons, Traversal.diagnoseAll, ih, List.flatMap_cons]

/-- The diagnostics of a tree inside a span, by induction over the tree. -/
theorem listed_diagnose (n : Node) (outer : Span) :
    Listed (n.Reports outer) (n.traversal.diagnose outer) := by
  induction n using Node.induction_children generalizing outer with
  | step n ih =>
    rw [Node.traversal_eq, Traversal.diagnose]
    cases hn : n.isUnsupported with
    | true =>
      refine .root fun a d => ?_
      cases a with
      | nil =>
        obtain ⟨kind, span⟩ := d
        simp [Node.reports_nil, Node.unsupported_iff, hn]
      | cons i address => simp [Node.reports_cons, hn]
    | false =>
      rw [if_neg Bool.false_ne_true, Traversal.diagnoseAll_map]
      refine (Listed.row (fun c hc => ih c hc _) 0).congr fun a d => ?_
      cases a with
      | nil => simp [Node.reports_nil, Node.unsupported_iff, hn]
      | cons i address => simp [Node.reports_cons, hn]

/-- The diagnostics of a tree report its outermost unsupported nodes, each once and in pre-order,
under its name and with the nearest span. -/
theorem Node.diagnose_outermost (root : Node) : Listed (root.Reports {}) root.diagnose :=
  listed_diagnose root {}

end Scaffold
