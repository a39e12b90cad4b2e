import Scaffold.Proofs.Code.View

/-!
# Spellings of one program

A program can be spelled in several ways that say the same.  The body of a branch
or loop may be a bare statement or a block around it, and an absent body may be
an empty block.  Several variables may be declared together or one by one.  The
keyword `let` may be any other keyword but `const`, and a strict comparison may
be a loose one, since the unit has one operator for both.

`unit_respelling` says that any number of these changes, at any depth, leave the
unit of a program as it was.
-/

namespace Scaffold.Code

/-! ## Changes of spelling -/

/-- A declaration for each declarator. -/
inductive Singles (keyword : String) : List (Declarator Node) → List (Option Node) → Prop where
  | nil : Singles keyword [] []
  | cons {d : Declarator Node} {ds : List (Declarator Node)} {ss : List (Option Node)}
      {span : Span} : Singles keyword ds ss →
      Singles keyword (d :: ds) (some (.variableDeclaration keyword [d] span) :: ss)

/-- Some of the declarations among statements are split into one for each declarator. -/
inductive Splits : List (Option Node) → List (Option Node) → Prop where
  | nil : Splits [] []
  | keep {s : Option Node} {ss ss' : List (Option Node)} :
      Splits ss ss' → Splits (s :: ss) (s :: ss')
  | split {keyword : String} {ds : List (Declarator Node)} {span : Span}
      {singles ss ss' : List (Option Node)} : Singles keyword ds singles → Splits ss ss' →
      Splits (some (.variableDeclaration keyword ds span) :: ss) (singles ++ ss')

/-- The body of a branch or loop is put in a block. -/
inductive Encloses : Option Node → Option Node → Prop where
  | bare {n : Node} {span : Span} : (∀ b, n ≠ .blockStatement b) →
      Encloses (some n) (some (.blockStatement ⟨[some n], span⟩))
  | absent {span : Span} : Encloses none (some (.blockStatement ⟨[], span⟩))

/-- The absent body of a function becomes an empty block. -/
inductive Supplies : Option (Block Node) → Option (Block Node) → Prop where
  | absent {span : Span} : Supplies none (some ⟨[], span⟩)

/-- A strict comparison becomes a loose one. -/
inductive Loosens : String → String → Prop where
  | equal : Loosens "===" "=="
  | different : Loosens "!==" "!="

/-- A declaration with `let` takes another keyword than `const`, and a strict comparison becomes a
loose one. -/
inductive Respells : Node → Node → Prop where
  | keyword {keyword : String} {ds : List (Declarator Node)} {span : Span} : keyword ≠ "const" →
      Respells (.variableDeclaration "let" ds span) (.variableDeclaration keyword ds span)
  | binary {operator operator' : String} {left right : Option Node} {span : Span} :
      Loosens operator operator' →
      Respells (.binaryExpression operator left right span)
        (.binaryExpression operator' left right span)
  | logical {operator operator' : String} {left right : Option Node} {span : Span} :
      Loosens operator operator' →
      Respells (.logicalExpression operator left right span)
        (.logicalExpression operator' left right span)

/-- The changes of spelling. -/
def respelling : Rewrite where
  node := Respells
  statements := Splits
  branch := Encloses
  functionBody := Supplies

/-! ## The lines of declarations -/

theorem block_append (ctx : Context) (ss ss' : List (Option Node)) :
    block ctx (ss ++ ss') = block ctx ss ++ block ctx ss' := by
  simp only [block_view, views, List.map_append, List.flatMap_append]

theorem Singles.block_eq {keyword : String} {ds : List (Declarator Node)}
    {ss : List (Option Node)} (h : Singles keyword ds ss) (ctx : Context) (span : Span) :
    block ctx ss = statement ctx (.variableDeclaration keyword ds span) := by
  induction h with
  | nil => rfl
  | @cons d ds ss span' _ ih =>
    simp only [statement] at ih
    have hfirst : declaration ctx keyword (d :: ds)
        = declaration ctx keyword [d] ++ declaration ctx keyword ds :=
      declaration_append ctx keyword [d] ds
    rw [block, ih, statement, statement, hfirst, List.map_append]

theorem Splits.block_eq {ss ss' : List (Option Node)} (h : Splits ss ss') (ctx : Context) :
    block ctx ss = block ctx ss' := by
  induction h with
  | nil => rfl
  | @keep s ss ss' _ ih =>
    cases s with
    | none => exact ih
    | some n => rw [block, block, ih]
  | @split keyword ds span singles ss ss' hsingles _ ih =>
    rw [block, block_append, hsingles.block_eq ctx span, ih]

/-! ## Bodies -/

theorem Encloses.body_eq {b b' : Option Node} (h : Encloses b b') (ctx : Context) :
    body ctx b = body ctx b' := by
  cases h with
  | absent => rfl
  | @bare n span hn =>
    -- Only a block is written otherwise as a body than as a statement.
    have hbody : body ctx (some n) = statement ctx n := by
      cases n with
      | blockStatement b => exact absurd rfl (hn b)
      | _ => rfl
    rw [hbody, body, block, block, List.append_nil]

theorem Supplies.functionBody_eq {b b' : Option (Block Node)} (h : Supplies b b')
    (ctx : Context) : functionBody ctx b = functionBody ctx b' := by
  cases h with
  | absent => rfl

/-! ## Keywords and operators -/

/-- A declaration is written by its binding, whatever its keyword. -/
theorem view_keyword {keyword keyword' : String}
    (h : Binding.ofKeyword keyword = Binding.ofKeyword keyword') (ds : List (Declarator Node))
    (span : Span) :
    view (.variableDeclaration keyword ds span) = view (.variableDeclaration keyword' ds span) := by
  simp only [view, body, statement, clause, declaration, h]
  rfl

theorem ofKeyword_of_ne {keyword : String} (h : keyword ≠ "const") :
    Binding.ofKeyword keyword = .reassignable := by
  rw [Binding.ofKeyword, if_neg h]

/-- An operation is written with its Go operator. -/
theorem operation_goOperator {operator operator' : String}
    (h : goOperator operator = goOperator operator') (place : Place) (left right : String) :
    operation place operator left right = operation place operator' left right := by
  simp only [operation, h]

theorem Loosens.goOperator_eq {operator operator' : String} (h : Loosens operator operator') :
    goOperator operator = goOperator operator' := by
  cases h <;> rfl

theorem view_binary_operator {operator operator' : String}
    (h : goOperator operator = goOperator operator') (left right : Option Node) (span : Span) :
    view (.binaryExpression operator left right span)
      = view (.binaryExpression operator' left right span) := by
  simp only [view, expressionStatement, loggedArguments?, clause, expression?, expression,
    operation_goOperator h]
  rfl

theorem view_logical_operator {operator operator' : String}
    (h : goOperator operator = goOperator operator') (left right : Option Node) (span : Span) :
    view (.logicalExpression operator left right span)
      = view (.logicalExpression operator' left right span) := by
  simp only [view, expressionStatement, loggedArguments?, clause, expression?, expression,
    operation_goOperator h]
  rfl

theorem Respells.view_eq {n m : Node} (h : Respells n m) : view n = view m := by
  cases h with
  | keyword hk =>
    have hlet : Binding.ofKeyword "let" = .reassignable := ofKeyword_of_ne (by decide)
    exact view_keyword (hlet.trans (ofKeyword_of_ne hk).symm) _ _
  | binary ho => exact view_binary_operator ho.goOperator_eq _ _ _
  | logical ho => exact view_logical_operator ho.goOperator_eq _ _ _

/-! ## Units -/

theorem respelling_unseen : Unseen respelling where
  node := Respells.view_eq
  statements h := h.block_eq
  branch h := h.body_eq
  functionBody h := h.functionBody_eq

/-- The spelling of a program has no influence on its unit.  Changes of spelling at any places of a
program, any number of them, give a tree with the same unit. -/
theorem unit_respelling {statements : List (Option Node)} {sourceType : String} {span : Span}
    {respelled : Node} (h : respelling.Changes (.program statements sourceType span) respelled) :
    ∃ text, unit (some (.program statements sourceType span)) = .ok text
      ∧ unit (some respelled) = .ok text :=
  ⟨_, rfl, unit_of_view rfl (respelling_unseen.changes h)⟩

/-- A declaration is split and its parts take different keywords, a loop is given a block around its
branch, the branch in it an empty block and a loose comparison, and a function an empty body. -/
theorem unit_respelling_loop :
    let x : Node := .identifier ⟨"x", {}⟩
    let y : Node := .identifier ⟨"y", {}⟩
    let strict : Node := .binaryExpression "===" (some x) (some y) {}
    let loose : Node := .binaryExpression "==" (some x) (some y) {}
    let function (body : Option (Block Node)) : Node := .functionDeclaration none [] body {}
    let before : Node := .program [
      some (.variableDeclaration "let" [⟨some x, none, {}⟩, ⟨some y, some x, {}⟩] {}),
      some (.whileStatement (some x) (some (.ifStatement (some strict) none none {})) {}),
      some (function none)] "script" {}
    let after : Node := .program [
      some (.variableDeclaration "var" [⟨some x, none, {}⟩] {}),
      some (.variableDeclaration "let" [⟨some y, some x, {}⟩] {}),
      some (.whileStatement (some x) (some (.blockStatement ⟨[
        some (.ifStatement (some loose) (some (.blockStatement ⟨[], {}⟩)) none {})], {}⟩)) {}),
      some (function (some ⟨[], {}⟩))] "script" {}
    respelling.Changes before after ∧
      ∃ text, unit (some before) = .ok text ∧ unit (some after) = .ok text := by
  intro x y strict loose function before after
  have hbranch : respelling.Changes (.ifStatement (some strict) none none {})
      (.ifStatement (some loose) (some (.blockStatement ⟨[], {}⟩)) none {}) :=
    .ifStatement (.some (.rule (.binary .equal))) (.rule .absent) (.child .none)
  have hloop : respelling.ChangesBranch (some (.ifStatement (some strict) none none {}))
      (some (.blockStatement ⟨[some (.ifStatement (some loose) (some (.blockStatement ⟨[], {}⟩))
        none {})], {}⟩)) := by
    refine .trans (.rule (.bare nofun)) (.child (.some (.blockStatement (.children ?_))))
    exact .cons (.some hbranch) .nil
  have hsingles : Singles "let" [⟨some x, none, {}⟩, ⟨some y, some x, {}⟩]
      [some (.variableDeclaration "let" [⟨some x, none, {}⟩] {}),
        some (.variableDeclaration "let" [⟨some y, some x, {}⟩] {})] := .cons (.cons .nil)
  have hchange : respelling.Changes before after := by
    refine .program (.trans (.rule (.split hsingles (.keep (.keep .nil)))) ?_)
    refine .children (.cons (.some (.rule (.keyword (by decide)))) (.cons (.some (.refl _)) ?_))
    refine .cons (.some (.whileStatement (.some (.refl _)) hloop)) (.cons (.some ?_) .nil)
    exact .functionDeclaration .nil (.rule .absent)
  exact ⟨hchange, unit_respelling hchange⟩

end Scaffold.Code
