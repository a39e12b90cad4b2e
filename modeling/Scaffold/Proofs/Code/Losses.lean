import Scaffold.Diagnostic
import Scaffold.Proofs.Code.Lines
import Scaffold.Proofs.Tree.Document

/-!
# What a unit leaves out

A statement or an expression may be written as nothing.  The diagnostics of a
tree report the constructs that are unsupported wherever they stand.  They say
nothing of a node that stands in a place where its kind is not written, and
nothing of a place that is empty.

A tree *keeps* all when every statement of its programs and blocks and every
entry of its lists of arguments and elements is written as some text.  What is
lost in a tree without diagnostics can be read off the kinds of its nodes.  A
statement is written when it is of a kind of statements, an expression statement
only with a written expression and a declaration only with a target that is an
identifier.  An entry is written when it is present and of a kind of
expressions, an identifier only with a name and a unary operation without an
operator only with a written operand.

* `keepsAll_iff_complete`: a tree without diagnostics keeps all exactly when all
  its statements and entries are of this form.
* `diagnose_misses`: there are trees without diagnostics that lose a statement and
  an element.
-/

namespace Scaffold

/-! ## Trees without diagnostics -/

theorem Traversal.diagnoseAll_eq_nil {inherited : Span} {ts : List Traversal} :
    Traversal.diagnoseAll inherited ts = [] ↔ ∀ t ∈ ts, t.diagnose inherited = [] := by
  induction ts with
  | nil => simp [Traversal.diagnoseAll]
  | cons t ts ih => simp [Traversal.diagnoseAll, ih]

/-- A tree that is supported throughout. -/
abbrev Node.Supported : Node → Prop := Node.Throughout fun m => m.isUnsupported = false

/-- A traversal has no diagnostics when its tree is supported throughout. -/
theorem Traversal.diagnose_eq_nil {n : Node} {inherited : Span} :
    n.traversal.diagnose inherited = [] ↔ n.Supported := by
  induction n using Node.induction_children generalizing inherited with
  | step n ih =>
    rw [Node.traversal_eq, Traversal.diagnose]
    cases hn : n.isUnsupported with
    | true =>
      refine ⟨nofun, fun h => ?_⟩
      rw [h.here] at hn
      cases hn
    | false =>
      simp only [Bool.false_eq_true, if_false, Traversal.diagnoseAll_eq_nil, List.forall_mem_map]
      constructor
      · intro h
        exact .intro hn fun c hc => (ih c hc).1 (h c hc)
      · intro h c hc
        exact (ih c hc).2 (h.children c hc)

theorem Node.diagnose_eq_nil {n : Node} : n.diagnose = [] ↔ n.Supported :=
  Traversal.diagnose_eq_nil

/-! ## Statements and entries -/

/-- The statements of a program or block. -/
def Node.statements : Node → List (Option Node)
  | .program body _ _ => body
  | .blockStatement b => b.body
  | _ => []

/-- The arguments of a call or the elements of an array. -/
def Node.entries : Node → List (Option Node)
  | .callExpression _ arguments _ => arguments
  | .arrayExpression elements _ => elements
  | _ => []

theorem Node.mem_children_of_statement {n s : Node} (h : some s ∈ n.statements) :
    s ∈ n.children := by
  cases n with
  | program | blockStatement => simpa [Node.children, Node.statements] using h
  | _ => cases h

theorem Node.mem_children_of_entry {n e : Node} (h : some e ∈ n.entries) : e ∈ n.children := by
  cases n with
  | callExpression | arrayExpression => simp_all [Node.children, Node.entries]
  | _ => cases h

namespace Code

/-- Every statement and every entry of a node is written as some text. -/
def KeepsAll (n : Node) : Prop :=
  (∀ s, some s ∈ n.statements → ∀ ctx, statementText ctx s ≠ "") ∧
    ∀ e ∈ n.entries, expression? .free e ≠ ""

mutual

/-- Whether a node is of a kind that is written as an expression. -/
def isWritten : Node → Bool
  | .literal .. | .binaryExpression .. | .logicalExpression .. | .memberExpression ..
  | .callExpression .. | .arrayExpression .. | .assignmentExpression .. => true
  | .identifier i => i.name ≠ ""
  | .unaryExpression operator _ argument _ | .updateExpression operator _ argument _ =>
    operator ≠ "" || isWritten? argument
  | _ => false

/-- Whether a child is present and of a kind that is written as an expression. -/
def isWritten? : Option Node → Bool
  | none => false
  | some n => isWritten n

end

/-- Whether a node is of a kind that is written as a statement. -/
def isWrittenStatement : Node → Bool
  | .expressionStatement e _ => isWritten? e
  | .variableDeclaration _ ds _ => ds.any fun d => (d.id.bind name?).isSome
  | .returnStatement .. | .blockStatement .. | .ifStatement .. | .forStatement ..
  | .whileStatement .. | .breakStatement .. | .continueStatement .. | .functionDeclaration .. =>
    true
  | _ => false

/-- Every statement of a node is of a kind that is written as a statement, and every entry is
present and of a kind that is written as an expression. -/
def Complete (n : Node) : Prop :=
  (∀ s, some s ∈ n.statements → isWrittenStatement s = true) ∧
    ∀ e ∈ n.entries, isWritten? e = true

/-! ## Expressions that are written as nothing -/

theorem quote_ne_empty (s : String) : Text.quote s ≠ "" := by
  rw [ne_eq, ← String.toList_inj]
  simp [Text.quote, Text.quoteChars]

theorem literalText_ne_empty (value : Value) (raw : String) : literalText value raw ≠ "" := by
  cases value with
  | integer n =>
    rw [literalText]
    split
    · exact toString_int_ne_empty n
    · assumption
  | number f x =>
    rw [literalText]
    split
    · exact Binary.codeText_ne_empty f x
    · assumption
  | _ => exact quote_ne_empty _

theorem grouped_ne_empty (s : String) : grouped s ≠ "" := by
  simp [grouped]

theorem operation_ne_empty (place : Place) (operator left right : String) :
    operation place operator left right ≠ "" := by
  cases place with
  | free => simp [operation]
  | operand => exact grouped_ne_empty _

theorem isWritten_of_isOperation {c : Option Node} (h : isOperation c = true) :
    isWritten? c = true := by
  rcases c with _ | n
  · cases h
  cases n with
  | binaryExpression | logicalExpression => rfl
  | _ => cases h

/-- A supported expression is written as nothing exactly when its kind is not written. -/
theorem expression_eq_empty {n : Node} (h : n.Supported) (place : Place) :
    expression place n = "" ↔ isWritten n = false := by
  induction h generalizing place with
  | @intro n hn _ ih =>
    have hchild {c : Option Node} (hc : ∀ m ∈ c, m ∈ n.children) :
        expression? .free c = "" ↔ isWritten? c = false := by
      cases c with
      | none => simp [expression?, isWritten?]
      | some m => exact ih m (hc m rfl) .free
    cases n with
    | literal value raw span => simp [expression, isWritten, literalText_ne_empty]
    | identifier i => simp [expression, isWritten]
    | binaryExpression | logicalExpression => simp [expression, isWritten, operation_ne_empty]
    | unaryExpression operator isPrefix argument span =>
      have hargument := hchild (c := argument) (by simp [Node.children])
      have hkept : Node.isDroppedOperator operator = false := hn
      rw [expression, hkept, isWritten]
      cases hop : isOperation argument with
      | true => simp [grouped_ne_empty, isWritten_of_isOperation hop]
      | false => simp [hargument]
    | memberExpression object property computed span =>
      cases computed <;> simp [expression, isWritten]
    | callExpression callee arguments span => simp [expression, isWritten, grouped_ne_empty]
    | arrayExpression elements span => simp [expression, isWritten]
    | updateExpression operator isPrefix argument span =>
      have hargument := hchild (c := argument) (by simp [Node.children])
      cases isPrefix <;> simp [expression, isWritten, hargument, and_comm]
    | assignmentExpression operator left right span => simp [expression, isWritten]
    | _ => simp [expression, isWritten]

theorem expression?_eq_empty {c : Option Node} (h : ∀ n ∈ c, n.Supported) :
    expression? .free c = "" ↔ isWritten? c = false := by
  cases c with
  | none => simp [expression?, isWritten?]
  | some n => exact expression_eq_empty (h n rfl) .free

theorem expressionStatement_eq_empty {e : Option Node} (h : ∀ n ∈ e, n.Supported) :
    expressionStatement e = "" ↔ isWritten? e = false := by
  rcases e with _ | e
  · simp [expressionStatement, loggedArguments?, expression?, isWritten?]
  cases e with
  | callExpression callee arguments span =>
    simp [expressionStatement_call, grouped_ne_empty, isWritten?, isWritten]
  | _ => exact expression?_eq_empty h

/-! ## Statements that are written as nothing -/

theorem intercalate_cons_ne_empty (sep : String) {part : String} (h : part ≠ "")
    (parts : List String) : sep.intercalate (part :: parts) ≠ "" := by
  cases parts with
  | nil => simpa using h
  | cons q parts => simp [String.intercalate_cons_cons, h]

theorem joinNonEmpty_ne_empty {part : String} (h : part ≠ "") (parts : List String) :
    Text.joinNonEmpty (part :: parts) ≠ "" := by
  rw [Text.joinNonEmpty, List.filter_cons_of_pos (by simpa using h)]
  exact intercalate_cons_ne_empty " " h _

theorem keyword_ne_empty (b : Binding) : b.keyword ≠ "" := by
  cases b <;> decide

/-- A declarator is written as nothing exactly when its target is no identifier. -/
theorem declarator_eq_empty (ctx : Context) (d : Declarator Node) :
    declarator ctx d = "" ↔ (d.id.bind name?).isSome = false := by
  obtain ⟨id, init, span⟩ := d
  rw [declarator_view, ← name?_view]
  cases id.bind name? with
  | none => simp
  | some name =>
    cases view? init with
    | none => simp [joinNonEmpty_ne_empty (keyword_ne_empty _)]
    | some v =>
      dsimp only
      split
      · simp
      · split
        · simp
        · simp
        · simp [joinNonEmpty_ne_empty (keyword_ne_empty _)]

theorem declaration_eq_nil (ctx : Context) (keyword : String) (ds : List (Declarator Node)) :
    declaration ctx keyword ds = [] ↔ (ds.any fun d => (d.id.bind name?).isSome) = false := by
  simp [declaration, List.filter_eq_nil_iff, declarator_eq_empty]

/-- Lines are a text that is not empty, unless there is none or a single empty one. -/
theorem linesText_ne_empty {ls : List Line} {l : Line} (hl : l ∈ ls) (h : l.text ≠ "") :
    linesText ls ≠ "" := by
  rcases ls with _ | ⟨first, _ | ⟨next, rest⟩⟩
  · cases hl
  · cases List.mem_singleton.1 hl
    simpa [linesText] using h
  · simp [linesText, String.intercalate_cons_cons]

theorem linesText_code_ne_empty {ls : List Line} {depth : Nat} {text : String}
    (hl : .code depth text ∈ ls) (h : text ≠ "") : linesText ls ≠ "" :=
  linesText_ne_empty hl (by simp [Line.text, h])

/-- A supported statement is written as nothing exactly when its kind is not written. -/
theorem statementText_eq_empty {n : Node} (h : n.Supported) (ctx : Context) :
    statementText ctx n = "" ↔ isWrittenStatement n = false := by
  have hwritten {depth : Nat} {text : String} (hl : .code depth text ∈ statement ctx n)
      (hne : text ≠ "") : statementText ctx n = "" ↔ true = false :=
    iff_of_false (linesText_code_ne_empty hl hne) (by decide)
  have hclosed (hl : .code ctx.depth "\x7d" ∈ statement ctx n) :
      statementText ctx n = "" ↔ true = false := hwritten hl (by decide)
  cases n with
  | expressionStatement e span =>
    have htext : expressionStatement e = "" ↔ isWritten? e = false :=
      expressionStatement_eq_empty fun m hm => h.children m (by simp_all [Node.children])
    rw [isWrittenStatement, ← htext, statementText, statement]
    split
    · next hempty => exact iff_of_true rfl hempty
    · next hne => exact iff_of_false (linesText_code_ne_empty (List.mem_singleton_self _) hne) hne
  | variableDeclaration keyword ds span =>
    rw [isWrittenStatement, ← declaration_eq_nil ctx keyword, statementText, statement]
    cases hds : declaration ctx keyword ds with
    | nil => exact iff_of_true rfl rfl
    | cons text texts =>
      have hne : text ≠ "" := by
        have hmem : text ∈ declaration ctx keyword ds := hds ▸ List.mem_cons_self
        rw [declaration, List.mem_filter] at hmem
        simpa using hmem.2
      exact iff_of_false (linesText_code_ne_empty List.mem_cons_self hne) (List.cons_ne_nil _ _)
  | returnStatement argument span =>
    cases argument with
    | none => exact hwritten (List.mem_singleton_self _) (by decide)
    | some argument => exact hwritten (List.mem_singleton_self _) (append_ne_empty (by decide))
  | breakStatement span => exact hwritten (List.mem_singleton_self _) (by decide)
  | continueStatement span => exact hwritten (List.mem_singleton_self _) (by decide)
  | blockStatement b => exact hclosed (by simp [statement])
  | ifStatement test consequent alternate span => exact hclosed (by simp [statement])
  | forStatement init test update body span => exact hclosed (by simp [statement])
  | whileStatement test body span => exact hclosed (by simp [statement])
  | functionDeclaration id params body span => exact hclosed (by simp [statement])
  | _ => exact iff_of_true rfl rfl

/-! ## Losses -/

/-- What a node of a supported tree keeps is seen from the kinds below it. -/
theorem keepsAll_iff {n : Node} (h : n.Supported) : KeepsAll n ↔ Complete n := by
  have hstatement (s : Node) (hs : some s ∈ n.statements) (ctx : Context) :
      statementText ctx s ≠ "" ↔ isWrittenStatement s = true := by
    have htext := statementText_eq_empty (h.children s (Node.mem_children_of_statement hs)) ctx
    simp [htext]
  have hentry (e : Option Node) (he : e ∈ n.entries) :
      expression? .free e ≠ "" ↔ isWritten? e = true := by
    have htext : expression? .free e = "" ↔ isWritten? e = false :=
      expression?_eq_empty fun m hm => h.children m (Node.mem_children_of_entry (hm ▸ he))
    simp [htext]
  constructor
  · rintro ⟨hstatements, hentries⟩
    exact ⟨fun s hs => (hstatement s hs {}).1 (hstatements s hs {}),
      fun e he => (hentry e he).1 (hentries e he)⟩
  · rintro ⟨hstatements, hentries⟩
    exact ⟨fun s hs ctx => (hstatement s hs ctx).2 (hstatements s hs),
      fun e he => (hentry e he).2 (hentries e he)⟩

theorem throughout_keepsAll_iff {n : Node} (h : n.Supported) :
    n.Throughout fun m => KeepsAll m ↔ Complete m := by
  induction n using Node.induction_children with
  | step n ih => exact .intro (keepsAll_iff h) fun c hc => ih c hc (h.children c hc)

/-- A tree without diagnostics keeps all its statements, arguments and elements exactly when each of
them is present and of a kind that is written where it stands. -/
theorem keepsAll_iff_complete {n : Node} (h : n.diagnose = []) :
    n.Throughout KeepsAll ↔ n.Throughout Complete := by
  have hiff := throughout_keepsAll_iff (Node.diagnose_eq_nil.1 h)
  constructor
  · intro hkeeps
    exact (hiff.and hkeeps).imp fun m hm => hm.1.1 hm.2
  · intro hcomplete
    exact (hiff.and hcomplete).imp fun m hm => hm.1.2 hm.2

/-- A call with two arguments in a block is kept as a whole. -/
theorem keepsAll_iff_complete_call :
    let f : Node := .identifier ⟨"f", {}⟩
    let negation : Node := .unaryExpression "-" true (some f) {}
    let call : Node := .callExpression (some f) [some negation, some f] {}
    let n : Node := .program [some (.blockStatement ⟨[
      some (.expressionStatement (some call) {}), none], {}⟩)] "script" {}
    n.diagnose = [] ∧ n.Throughout Complete ∧ n.Throughout KeepsAll := by
  intro f negation call n
  have hdiagnose : n.diagnose = [] := rfl
  have hf : f.Throughout Complete :=
    .intro (by simp [f, Complete, Node.statements, Node.entries]) (List.forall_mem_nil _)
  have hnegation : negation.Throughout Complete := by
    refine .intro ?_ (by simpa [negation, Node.children] using hf)
    simp [negation, Complete, Node.statements, Node.entries]
  have hcall : call.Throughout Complete := by
    refine .intro ?_ (by simp [call, Node.children, hf, hnegation])
    simp [call, negation, f, Complete, Node.statements, Node.entries, isWritten?, isWritten]
  have hstatement : (Node.expressionStatement (some call) {}).Throughout Complete := by
    refine .intro ?_ (by simpa [Node.children] using hcall)
    simp [Complete, Node.statements, Node.entries]
  have hblock : (Node.blockStatement ⟨[some (.expressionStatement (some call) {}), none],
      {}⟩).Throughout Complete := by
    refine .intro ?_ (by simpa [Node.children] using hstatement)
    simp [call, Complete, Node.statements, Node.entries, isWrittenStatement, isWritten?, isWritten]
  have hn : n.Throughout Complete := by
    refine .intro ?_ (by simpa [n, Node.children] using hblock)
    simp [n, Complete, Node.statements, Node.entries, isWrittenStatement]
  exact ⟨hdiagnose, hn, (keepsAll_iff_complete hdiagnose).2 hn⟩

set_option maxRecDepth 2000 in
/-- A program without diagnostics in which a statement and an element are written as nothing: an
array in place of a statement, with a hole. -/
theorem diagnose_misses :
    let document := "\x7b\"type\":\"Program\",\"body\":[\x7b\"type\":\"ArrayExpression\","
      ++ "\"elements\":[null]\x7d]\x7d"
    let array : Node := .arrayExpression [none] {}
    let p : Node := .program [some array] "" {}
    Node.parse document = .ok p ∧ p.diagnose = [] ∧
      unit (some p) = .ok "package main\nimport \"fmt\"\n" ∧
      (∀ ctx, statementText ctx array = "") ∧ expression? .free none = "" ∧
      ¬ p.Throughout KeepsAll ∧ ¬ array.Throughout KeepsAll := by
  intro document array p
  let j : Json := .object [(⟨"type", 0⟩, .string "Program"), (⟨"body", 0⟩, .array [.object [
    (⟨"type", 0⟩, .string "ArrayExpression"), (⟨"elements", 0⟩, .array [.null])]])]
  have hread : Json.read? document = some j := by
    cbv
  have hparse : Node.parse document = .ok p := (Node.parse_of_read hread p).2 rfl
  refine ⟨hparse, rfl, rfl, fun _ => rfl, rfl, fun h => ?_, fun h => ?_⟩
  · exact h.here.1 array List.mem_cons_self {} rfl
  · exact h.here.2 none List.mem_cons_self rfl

end Code

end Scaffold
