import Scaffold.Code.Unit
import Scaffold.Proofs.Tree.Rewrite

/-!
# What the writer sees of a node

The writer does not only write a child.  It also asks of some children what they
are: whether an operand is an operation, whether a callee is `console.log` or
`require`, whether an initial value is an array, whether a target or parameter
is an identifier.  The *view* of a node is all that it can learn in this way,
together with what it writes for the node in every place.

The writer is compositional: the view of a node is determined by its operator,
keyword, names and flags, and by the views of its children.  There is one lemma
for each kind of node that has children, and none of them asks for equal spans.
The statements of a block and the body of a branch or loop only count through
the lines that are written for them.

`Unseen.changes` draws the conclusion.  A rewrite whose rules keep
views, or the lines of statements and bodies, keeps the view of every tree.
-/

namespace Scaffold.Code

/-! ## Questions about a node -/

/-- The name of an identifier. -/
def name? : Node → Option String
  | .identifier i => some i.name
  | _ => none

/-- The text of a string literal. -/
def text? : Node → Option String
  | .literal (.string text) _ _ => some text
  | _ => none

/-- Whether a node is an array. -/
def isArray : Node → Bool
  | .arrayExpression .. => true
  | _ => false

/-- Whether a node is `console.log`. -/
def isLogger : Node → Bool
  | .memberExpression object property false _ =>
    object.bind name? == some "console" && property.bind name? == some "log"
  | _ => false

/-- The lines of a program. -/
def programLines? : Node → Option (List Line)
  | .program body _ _ => some (block {} body)
  | _ => none

/-- All that the writer can learn of a node. -/
structure View where
  /-- The text as an expression. -/
  expression : Place → String
  /-- The text in place of a statement. -/
  expressionStatement : String
  /-- The text as a clause of a loop header. -/
  clause : Context → String
  /-- The lines as a statement. -/
  statement : Context → List Line
  /-- The lines as the body of a branch or loop. -/
  body : Context → List Line
  /-- Whether it is a binary or logical operation. -/
  isOperation : Bool
  /-- Whether it is an array. -/
  isArray : Bool
  /-- Whether it is `console.log`. -/
  isLogger : Bool
  /-- Its name, if it is an identifier. -/
  name? : Option String
  /-- Its text, if it is a string literal. -/
  text? : Option String
  /-- The module it requires. -/
  requiredPath? : Option String
  /-- Its lines, if it is a program. -/
  programLines? : Option (List Line)

/-- The view of a node. -/
def view (n : Node) : View where
  expression place := expression place n
  expressionStatement := expressionStatement (some n)
  clause ctx := clause ctx (some n)
  statement ctx := statement ctx n
  body ctx := body ctx (some n)
  isOperation := isOperation (some n)
  isArray := isArray n
  isLogger := isLogger n
  name? := name? n
  text? := text? n
  requiredPath? := requiredPath? n
  programLines? := programLines? n

/-- The view of a child. -/
def view? (c : Option Node) : Option View := c.map view

/-- The views of the children in a list. -/
def views (cs : List (Option Node)) : List (Option View) := cs.map view?

/-! ## Children through their views -/

section Child
variable (c : Option Node)

theorem expression?_view (place : Place) :
    expression? place c = (view? c).elim "" (·.expression place) := by
  cases c <;> rfl

theorem expressionStatement_view :
    expressionStatement c = (view? c).elim "" (·.expressionStatement) := by
  cases c <;> rfl

theorem clause_view (ctx : Context) : clause ctx c = (view? c).elim "" (·.clause ctx) := by
  cases c <;> rfl

theorem body_view (ctx : Context) : body ctx c = (view? c).elim [] (·.body ctx) := by
  cases c <;> rfl

theorem isOperation_view : isOperation c = (view? c).elim false (·.isOperation) := by
  cases c <;> rfl

theorem name?_view : c.bind name? = (view? c).bind (·.name?) := by
  cases c <;> rfl

theorem isLogger_view : c.any isLogger = (view? c).any (·.isLogger) := by
  cases c <;> rfl

theorem parameter?_view : parameter? c = ((view? c).bind (·.name?)).map fun name =>
    Text.joinNonEmpty [(infer name).name, (infer name).type] := by
  cases c with
  | none => rfl
  | some n => cases n <;> rfl

/-- The line of a return statement. -/
theorem statement_return_view (ctx : Context) (span : Span) :
    statement ctx (.returnStatement c span)
      = [.code ctx.depth ((view? c).elim "return" fun v => "return " ++ v.expression .free)] := by
  cases c <;> rfl

end Child

section Children
variable (cs : List (Option Node))

theorem expressions_view :
    expressions cs = (views cs).map (·.elim "" (·.expression .free)) := by
  induction cs with
  | nil => rfl
  | cons c cs ih => rw [expressions, ih, expression?_view]; rfl

theorem parameters_view : cs.filterMap parameter? = (views cs).filterMap fun v =>
    (v.bind (·.name?)).map fun name =>
      Text.joinNonEmpty [(infer name).name, (infer name).type] := by
  rw [views, List.filterMap_map]
  congr 1
  exact funext parameter?_view

theorem block_view (ctx : Context) :
    block ctx cs = (views cs).flatMap (·.elim [] (·.statement ctx)) := by
  induction cs with
  | nil => rfl
  | cons c cs ih =>
    cases c with
    | none => exact ih
    | some n => rw [block, ih]; rfl

/-- The text of a string literal that stands alone in a list. -/
def soleText? : List (Option Node) → Option String
  | [c] => c.bind text?
  | _ => none

theorem soleText?_view : soleText? cs = match views cs with
    | [v] => v.bind (·.text?)
    | _ => none := by
  match cs with
  | [] => rfl
  | [none] => rfl
  | [some _] => rfl
  | _ :: _ :: _ => rfl

end Children

/-! ## Calls and declarators -/

/-- A call requires a module when its callee is `require` and its argument is a string. -/
theorem requiredPath?_call (callee : Option Node) (arguments : List (Option Node)) (span : Span) :
    requiredPath? (.callExpression callee arguments span)
      = if callee.bind name? = some "require" then soleText? arguments else none := by
  rcases callee with _ | callee
  · rfl
  cases callee with
  | identifier i =>
    simp only [Option.bind_some, name?, Option.some.injEq]
    match arguments with
    | [] => simp [requiredPath?, soleText?]
    | [none] => simp [requiredPath?, soleText?]
    | [some n] =>
      simp only [soleText?, Option.bind_some]
      cases n with
      | literal value raw span' =>
        cases value with
        | string path => rfl
        | _ => simp [requiredPath?, text?]
      | _ => simp [requiredPath?, text?]
    | _ :: _ :: _ => simp [requiredPath?, soleText?]
  | _ => rfl

/-- A call logs its arguments when its callee is `console.log`. -/
theorem loggedArguments?_call (callee : Option Node) (arguments : List (Option Node))
    (span : Span) :
    loggedArguments? (some (.callExpression callee arguments span))
      = if callee.any isLogger then some arguments else none := by
  rcases callee with _ | callee
  · rfl
  cases callee with
  | memberExpression object property computed span' =>
    cases computed with
    | true => simp [loggedArguments?, isLogger]
    | false =>
      simp only [Option.any_some, isLogger]
      rcases object with _ | object
      · rfl
      cases object with
      | identifier i =>
        rcases property with _ | property
        · simp [loggedArguments?]
        cases property with
        | identifier j => simp [loggedArguments?, name?]
        | _ => simp [loggedArguments?, name?]
      | _ => rfl
  | _ => rfl

/-- The text of a call in place of a statement. -/
theorem expressionStatement_call (callee : Option Node) (arguments : List (Option Node))
    (span : Span) :
    expressionStatement (some (.callExpression callee arguments span))
      = (if callee.any isLogger then "fmt.Println" else expression? .free callee)
        ++ grouped (expressionList arguments) := by
  rw [expressionStatement, loggedArguments?_call]
  by_cases h : callee.any isLogger
  · rw [if_pos h, if_pos h]
  · rw [if_neg h, if_neg h]
    rfl

/-- The text of a declarator through the views of its two children. -/
theorem declarator_view (ctx : Context) (id init : Option Node) (span : Span) :
    declarator ctx ⟨id, init, span⟩ = match (view? id).bind (·.name?) with
      | none => ""
      | some name => match view? init with
        | none =>
          Text.joinNonEmpty [ctx.binding.keyword, (infer name).name, (infer name).type]
        | some v =>
          if v.isArray then
            (infer name).name ++ " := " ++ compositeType (infer name).type ++ v.expression .free
          else match ctx.binding, v.requiredPath? with
            | .reassignable, _ => name ++ " := " ++ v.expression .free
            | .fixed, some path => "import " ++ name ++ " " ++ Text.quote path
            | .fixed, none =>
              Text.joinNonEmpty [ctx.binding.keyword, (infer name).name, (infer name).type, "=",
                v.expression .free] := by
  rcases id with _ | id
  · rfl
  cases id with
  | identifier target =>
    rcases init with _ | init
    · rfl
    obtain ⟨depth, binding⟩ := ctx
    cases binding with
    | reassignable => cases init <;> rfl
    | fixed =>
      cases init with
      | callExpression callee arguments span' =>
        simp only [declarator, view?, Option.map_some, Option.bind_some, view, name?, isArray]
        cases requiredPath? (.callExpression callee arguments span') <;> rfl
      | _ => rfl
  | _ => rfl

/-! ## Views of nodes with children -/

section Composition
variable (span span' : Span)

theorem view_program {body body' : List (Option Node)}
    (h : ∀ ctx, block ctx body = block ctx body') (sourceType sourceType' : String) :
    view (.program body sourceType span) = view (.program body' sourceType' span') := by
  simp only [view, programLines?, h]
  rfl

theorem view_expressionStatement {e e' : Option Node} (h : view? e = view? e') :
    view (.expressionStatement e span) = view (.expressionStatement e' span') := by
  simp only [view, statement, body, expressionStatement_view, h]
  rfl

theorem view_returnStatement {e e' : Option Node} (h : view? e = view? e') :
    view (.returnStatement e span) = view (.returnStatement e' span') := by
  simp only [view, body, statement_return_view, h]
  rfl

theorem view_blockStatement {body body' : List (Option Node)}
    (h : ∀ ctx, block ctx body = block ctx body') :
    view (.blockStatement ⟨body, span⟩) = view (.blockStatement ⟨body', span'⟩) := by
  simp only [view, statement, Code.body, h]
  rfl

theorem view_ifStatement {test test' consequent consequent' alternate alternate' : Option Node}
    (ht : view? test = view? test') (hc : ∀ ctx, body ctx consequent = body ctx consequent')
    (ha : ∀ ctx, body ctx alternate = body ctx alternate') :
    view (.ifStatement test consequent alternate span)
      = view (.ifStatement test' consequent' alternate' span') := by
  simp only [view, body, statement, expression?_view, ht, hc, ha]
  rfl

theorem view_forStatement {init init' test test' update update' body body' : Option Node}
    (hi : view? init = view? init') (ht : view? test = view? test')
    (hu : view? update = view? update') (hb : ∀ ctx, Code.body ctx body = Code.body ctx body') :
    view (.forStatement init test update body span)
      = view (.forStatement init' test' update' body' span') := by
  simp only [view, Code.body, statement, clause_view, expression?_view, hi, ht, hu, hb]
  rfl

theorem view_whileStatement {test test' body body' : Option Node} (ht : view? test = view? test')
    (hb : ∀ ctx, Code.body ctx body = Code.body ctx body') :
    view (.whileStatement test body span) = view (.whileStatement test' body' span') := by
  simp only [view, Code.body, statement, expression?_view, ht, hb]
  rfl

theorem view_variableDeclaration {ds ds' : List (Declarator Node)}
    (h : ∀ ctx, ds.map (declarator ctx) = ds'.map (declarator ctx)) (keyword : String) :
    view (.variableDeclaration keyword ds span)
      = view (.variableDeclaration keyword ds' span') := by
  simp only [view, body, statement, clause, declaration, h]
  rfl

/-- A declarator is only ever written by its declaration. -/
theorem view_variableDeclarator (d d' : Declarator Node) :
    view (.variableDeclarator d) = view (.variableDeclarator d') := rfl

theorem view_functionDeclaration {params params' : List (Option Node)}
    {body body' : Option (Block Node)} (hp : views params = views params')
    (hb : ∀ ctx, functionBody ctx body = functionBody ctx body') (id : Option Identifier) :
    view (.functionDeclaration id params body span)
      = view (.functionDeclaration id params' body' span') := by
  simp only [view, Code.body, statement, functionHeader, parameters_view, hp, hb]
  rfl

theorem view_binaryExpression {left left' right right' : Option Node}
    (hl : view? left = view? left') (hr : view? right = view? right') (operator : String) :
    view (.binaryExpression operator left right span)
      = view (.binaryExpression operator left' right' span') := by
  simp only [view, expressionStatement, loggedArguments?, clause, expression?, expression,
    expression?_view left, expression?_view right, expression?_view left',
    expression?_view right', hl, hr]
  rfl

theorem view_logicalExpression {left left' right right' : Option Node}
    (hl : view? left = view? left') (hr : view? right = view? right') (operator : String) :
    view (.logicalExpression operator left right span)
      = view (.logicalExpression operator left' right' span') := by
  simp only [view, expressionStatement, loggedArguments?, clause, expression?, expression,
    expression?_view left, expression?_view right, expression?_view left',
    expression?_view right', hl, hr]
  rfl

theorem view_unaryExpression {e e' : Option Node} (h : view? e = view? e') (operator : String)
    (isPrefix isPrefix' : Bool) :
    view (.unaryExpression operator isPrefix e span)
      = view (.unaryExpression operator isPrefix' e' span') := by
  simp only [view, expressionStatement, loggedArguments?, clause, expression?, expression,
    expression?_view e, isOperation_view e, expression?_view e', isOperation_view e', h]
  rfl

theorem view_memberExpression {object object' property property' : Option Node}
    (ho : view? object = view? object') (hp : view? property = view? property')
    (computed : Bool) :
    view (.memberExpression object property computed span)
      = view (.memberExpression object' property' computed span') := by
  cases computed <;>
  · simp only [view, expressionStatement, loggedArguments?, clause, expression?, expression,
      isLogger, expression?_view object, expression?_view property, expression?_view object',
      expression?_view property', name?_view, ho, hp]
    rfl

theorem view_callExpression {callee callee' : Option Node}
    {arguments arguments' : List (Option Node)} (hc : view? callee = view? callee')
    (ha : views arguments = views arguments') :
    view (.callExpression callee arguments span)
      = view (.callExpression callee' arguments' span') := by
  simp only [view, expressionStatement_call, requiredPath?_call, clause, expression?, expression,
    expressionList, expression?_view callee, expression?_view callee', isLogger_view, name?_view,
    expressions_view, soleText?_view, hc, ha]
  rfl

theorem view_arrayExpression {elements elements' : List (Option Node)}
    (h : views elements = views elements') :
    view (.arrayExpression elements span) = view (.arrayExpression elements' span') := by
  simp only [view, expressionStatement, loggedArguments?, clause, expression?, expression,
    expressions_view, h]
  rfl

theorem view_updateExpression {e e' : Option Node} (h : view? e = view? e') (operator : String)
    (isPrefix : Bool) :
    view (.updateExpression operator isPrefix e span)
      = view (.updateExpression operator isPrefix e' span') := by
  simp only [view, expressionStatement, loggedArguments?, clause, expression?, expression,
    expression?_view e, expression?_view e', h]
  rfl

theorem view_assignmentExpression {left left' right right' : Option Node}
    (hl : view? left = view? left') (hr : view? right = view? right') (operator : String) :
    view (.assignmentExpression operator left right span)
      = view (.assignmentExpression operator left' right' span') := by
  simp only [view, expressionStatement, loggedArguments?, clause, expression?, expression,
    expression?_view left, expression?_view right, expression?_view left',
    expression?_view right', hl, hr]
  rfl

end Composition

/-! ## Rewrites that the writer does not see -/

/-- The rules of a rewrite keep views, and the lines of statements and bodies. -/
structure Unseen (R : Rewrite) : Prop where
  node : ∀ {n m}, R.node n m → view n = view m
  statements : ∀ {ss ss'}, R.statements ss ss' → ∀ ctx, block ctx ss = block ctx ss'
  branch : ∀ {b b'}, R.branch b b' → ∀ ctx, body ctx b = body ctx b'
  functionBody : ∀ {b b'}, R.functionBody b b' → ∀ ctx, functionBody ctx b = functionBody ctx b'

mutual

/-- A rewrite that is not seen at its rules is not seen in any tree. -/
theorem Unseen.changes {R : Rewrite} (hR : Unseen R) :
    ∀ {n m : Node}, R.Changes n m → view n = view m
  | _, _, .refl _ => rfl
  | _, _, .trans h₁ h₂ => (hR.changes h₁).trans (hR.changes h₂)
  | _, _, .rule h => hR.node h
  | _, _, .program h => view_program _ _ (hR.changesStatements h) _ _
  | _, _, .expressionStatement h => view_expressionStatement _ _ (hR.changesChild h)
  | _, _, .returnStatement h => view_returnStatement _ _ (hR.changesChild h)
  | _, _, .blockStatement h => view_blockStatement _ _ (hR.changesStatements h)
  | _, _, .ifStatement ht hc ha =>
    view_ifStatement _ _ (hR.changesChild ht) (hR.changesBranch hc) (hR.changesBranch ha)
  | _, _, .forStatement hi ht hu hb =>
    view_forStatement _ _ (hR.changesChild hi) (hR.changesChild ht) (hR.changesChild hu)
      (hR.changesBranch hb)
  | _, _, .whileStatement ht hb =>
    view_whileStatement _ _ (hR.changesChild ht) (hR.changesBranch hb)
  | _, _, .variableDeclaration h =>
    view_variableDeclaration _ _ (hR.changesDeclarators h) _
  | _, _, .variableDeclarator _ _ => view_variableDeclarator _ _
  | _, _, .functionDeclaration hp hb =>
    view_functionDeclaration _ _ (hR.changesChildren hp) (hR.changesFunctionBody hb) _
  | _, _, .binaryExpression hl hr =>
    view_binaryExpression _ _ (hR.changesChild hl) (hR.changesChild hr) _
  | _, _, .logicalExpression hl hr =>
    view_logicalExpression _ _ (hR.changesChild hl) (hR.changesChild hr) _
  | _, _, .unaryExpression h => view_unaryExpression _ _ (hR.changesChild h) _ _ _
  | _, _, .memberExpression ho hp =>
    view_memberExpression _ _ (hR.changesChild ho) (hR.changesChild hp) _
  | _, _, .callExpression hc ha =>
    view_callExpression _ _ (hR.changesChild hc) (hR.changesChildren ha)
  | _, _, .arrayExpression h => view_arrayExpression _ _ (hR.changesChildren h)
  | _, _, .updateExpression h => view_updateExpression _ _ (hR.changesChild h) _ _
  | _, _, .assignmentExpression hl hr =>
    view_assignmentExpression _ _ (hR.changesChild hl) (hR.changesChild hr) _

theorem Unseen.changesChild {R : Rewrite} (hR : Unseen R) :
    ∀ {c c' : Option Node}, R.ChangesChild c c' → view? c = view? c'
  | _, _, .none => rfl
  | _, _, .some h => congrArg some (hR.changes h)

theorem Unseen.changesChildren {R : Rewrite} (hR : Unseen R) : ∀ {cs cs' : List (Option Node)},
    R.ChangesChildren cs cs' → views cs = views cs'
  | _, _, .nil => rfl
  | _, _, .cons h hs => by
    show view? _ :: views _ = view? _ :: views _
    rw [hR.changesChild h, hR.changesChildren hs]

theorem Unseen.changesStatements {R : Rewrite} (hR : Unseen R) : ∀ {ss ss' : List (Option Node)},
    R.ChangesStatements ss ss' → ∀ ctx, block ctx ss = block ctx ss'
  | _, _, .rule h, ctx => hR.statements h ctx
  | _, _, .trans h₁ h₂, ctx =>
    (hR.changesStatements h₁ ctx).trans (hR.changesStatements h₂ ctx)
  | _, _, .children h, ctx => by rw [block_view, block_view, hR.changesChildren h]

theorem Unseen.changesBranch {R : Rewrite} (hR : Unseen R) : ∀ {b b' : Option Node},
    R.ChangesBranch b b' → ∀ ctx, body ctx b = body ctx b'
  | _, _, .rule h, ctx => hR.branch h ctx
  | _, _, .trans h₁ h₂, ctx => (hR.changesBranch h₁ ctx).trans (hR.changesBranch h₂ ctx)
  | _, _, .child h, ctx => by rw [body_view, body_view, hR.changesChild h]

theorem Unseen.changesDeclarators {R : Rewrite} (hR : Unseen R) :
    ∀ {ds ds' : List (Declarator Node)},
    R.ChangesDeclarators ds ds' → ∀ ctx, ds.map (declarator ctx) = ds'.map (declarator ctx)
  | _, _, .nil, _ => rfl
  | _, _, .cons hid hinit hs, ctx => by
    rw [List.map_cons, List.map_cons, declarator_view, declarator_view, hR.changesChild hid,
      hR.changesChild hinit, hR.changesDeclarators hs ctx]

theorem Unseen.changesFunctionBody {R : Rewrite} (hR : Unseen R) : ∀ {b b' : Option (Block Node)},
    R.ChangesFunctionBody b b' → ∀ ctx, Code.functionBody ctx b = Code.functionBody ctx b'
  | _, _, .rule h, ctx => hR.functionBody h ctx
  | _, _, .trans h₁ h₂, ctx =>
    (hR.changesFunctionBody h₁ ctx).trans (hR.changesFunctionBody h₂ ctx)
  | _, _, .none, _ => rfl
  | _, _, .some h, ctx => hR.changesStatements h ctx

end

/-- Trees with equal views have the same unit, if one of them is a program. -/
theorem unit_of_view {n m : Node} {lines : List Line} (hn : programLines? n = some lines)
    (h : view n = view m) : unit (some m) = unit (some n) := by
  have hm : programLines? m = some lines := by
    rw [← hn]
    exact (congrArg View.programLines? h).symm
  have hunit : ∀ {k : Node}, programLines? k = some lines →
      unit (some k) = .ok (fileText (header ++ lines.map Line.text)) := by
    intro k hk
    cases k with
    | program body sourceType span => cases hk; rfl
    | _ => cases hk
  rw [hunit hn, hunit hm]

end Scaffold.Code
