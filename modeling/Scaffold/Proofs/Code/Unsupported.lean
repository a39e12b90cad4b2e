import Scaffold.Proofs.Code.View

/-!
# Unsupported constructs leave no trace

An unsupported node is written as nothing.  This module proves more: nothing
else in a unit depends on it.  Two changes to a program are *redactions*.  An
unsupported node may be exchanged for any other unsupported node, wherever it
stands and whatever is below it.  And an *idle* element may be dropped from the
statements of the program or of any block: an absent one, an unsupported node,
or an expression statement whose expression is absent or unsupported.

`unit_redaction` says that any number of redactions, at any depth, leave the
unit of a program as it was.
-/

namespace Scaffold.Code

/-- The view of a node that is written as nothing and answers every question with no. -/
def View.nothing : View where
  expression _ := ""
  expressionStatement := ""
  clause _ := ""
  statement _ := []
  body _ := []
  isOperation := false
  isArray := false
  isLogger := false
  name? := none
  text? := none
  requiredPath? := none
  programLines? := none

/-- The writer sees nothing of an unsupported node. -/
theorem view_unsupported {n : Node} (h : n.isUnsupported = true) : view n = View.nothing := by
  cases n with
  | unknown type span => rfl
  | unaryExpression operator isPrefix argument span =>
    have hdropped : Node.isDroppedOperator operator = true := h
    have htext : ∀ place,
        expression place (.unaryExpression operator isPrefix argument span) = "" := by
      intro place
      rw [expression, if_pos hdropped]
    simp only [view, expressionStatement, loggedArguments?, clause, expression?, htext]
    rfl
  | _ => cases h

/-- An element of a body that leaves no line. -/
def isIdle : Option Node → Bool
  | none => true
  | some (.expressionStatement none _) => true
  | some (.expressionStatement (some e) _) => e.isUnsupported
  | some n => n.isUnsupported

/-- An idle element is written on no lines. -/
theorem block_idle {s : Option Node} (h : isIdle s = true) (ctx : Context)
    (ss : List (Option Node)) : block ctx (s :: ss) = block ctx ss := by
  match s, h with
  | none, _ => rfl
  | some n, h =>
    suffices hn : statement ctx n = [] by rw [block, hn, List.nil_append]
    cases n with
    | unknown type span => rfl
    | unaryExpression operator isPrefix argument span => rfl
    | expressionStatement e span =>
      cases e with
      | none => rfl
      | some e =>
        have he : expressionStatement (some e) = "" :=
          congrArg View.expressionStatement (view_unsupported (n := e) h)
        rw [statement, he, if_pos rfl]
    | _ => cases h

/-- Some of the idle elements of a body are dropped. -/
inductive Drops : List (Option Node) → List (Option Node) → Prop where
  | nil : Drops [] []
  | keep {s : Option Node} {ss ss' : List (Option Node)} : Drops ss ss' → Drops (s :: ss) (s :: ss')
  | drop {s : Option Node} {ss ss' : List (Option Node)} : isIdle s = true → Drops ss ss' →
      Drops (s :: ss) ss'

/-- All of the idle elements of a body may be dropped. -/
theorem Drops.all (ss : List (Option Node)) : Drops ss (ss.filter fun s => !isIdle s) := by
  induction ss with
  | nil => exact .nil
  | cons s ss ih =>
    cases h : isIdle s with
    | true => simpa [List.filter_cons, h] using Drops.drop h ih
    | false => simpa [List.filter_cons, h] using Drops.keep (s := s) ih

theorem Drops.block_eq {ss ss' : List (Option Node)} (h : Drops ss ss') (ctx : Context) :
    block ctx ss = block ctx ss' := by
  induction h with
  | nil => rfl
  | @keep s ss ss' _ ih =>
    cases s with
    | none => exact ih
    | some n => rw [block, block, ih]
  | drop hs _ ih => rw [block_idle hs, ih]

/-- Exchanging unsupported nodes and dropping idle elements. -/
def redaction : Rewrite where
  node n m := n.isUnsupported = true ∧ m.isUnsupported = true
  statements := Drops

theorem redaction_unseen : Unseen redaction where
  node := fun ⟨hn, hm⟩ => (view_unsupported hn).trans (view_unsupported hm).symm
  statements h := h.block_eq
  branch h := h.elim
  functionBody h := h.elim

/-- Unsupported nodes have no influence on the unit of a program.  Redactions at any places of a
program, any number of them, give a tree with the same unit. -/
theorem unit_redaction {statements : List (Option Node)} {sourceType : String} {span : Span}
    {redacted : Node} (h : redaction.Changes (.program statements sourceType span) redacted) :
    ∃ text, unit (some (.program statements sourceType span)) = .ok text
      ∧ unit (some redacted) = .ok text :=
  ⟨_, rfl, unit_of_view rfl (redaction_unseen.changes h)⟩

/-- All idle elements are dropped: a class, and two elements of a block.  The test of the branch
around the block, a `typeof`, is exchanged for a spread. -/
theorem unit_redaction_branch :
    let test : Node := .unaryExpression "typeof" true (some (.identifier ⟨"x", {}⟩)) {}
    let before : Node := .program [some (.unknown "ClassDeclaration" {}),
      some (.ifStatement (some test) (some (.blockStatement ⟨[none,
        some (.expressionStatement (some test) {}), some (.breakStatement {})], {}⟩)) none {})]
      "script" {}
    let after : Node := .program [some (.ifStatement (some (.unknown "SpreadElement" {}))
      (some (.blockStatement ⟨[some (.breakStatement {})], {}⟩)) none {})] "script" {}
    redaction.Changes before after ∧
      ∃ text, unit (some before) = .ok text ∧ unit (some after) = .ok text := by
  intro test before after
  have hbranch : redaction.ChangesBranch
      (some (.blockStatement ⟨[none, some (.expressionStatement (some test) {}),
        some (.breakStatement {})], {}⟩))
      (some (.blockStatement ⟨[some (.breakStatement {})], {}⟩)) :=
    .child (.some (.blockStatement (.rule (Drops.all _))))
  have hchange : redaction.Changes before after := by
    refine .program (.trans (.rule (Drops.all _)) (.children (.cons (.some ?_) .nil)))
    exact .ifStatement (.some (.rule ⟨rfl, rfl⟩)) hbranch (.child .none)
  exact ⟨hchange, unit_redaction hchange⟩

end Scaffold.Code
