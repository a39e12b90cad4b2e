import Scaffold.Proofs.Code.Lines

/-!
# Indentation

A statement is written at the depth of its context, and what is nested in it is
written deeper by the nesting alone.  So a context with more depth adds the same
tabs to every line that is not blank, and the binding in it is never seen: a
declaration has one of its own.

`Line.shift` adds levels to a line.  `statement_shift` is the law for the lines of
a statement, by induction over the statement, its bodies and its blocks.

* `statementText_indented`: the text of a statement at depth `k` is its text at
  depth zero with `k` tabs in front of each line that is not empty.
-/

namespace Scaffold.Code

/-! ## Lines -/

/-- A line with more levels of indentation.  A blank line stays blank. -/
def Line.shift (k : Nat) : Line → Line
  | .blank => .blank
  | .code depth text => .code (k + depth) text

/-- Declarators are written without indentation and with the binding of their declaration. -/
theorem declaration_context (ctx ctx' : Context) (keyword : String) (ds : List (Declarator Node)) :
    declaration ctx keyword ds = declaration ctx' keyword ds := rfl

theorem clause_context (ctx ctx' : Context) (c : Option Node) : clause ctx c = clause ctx' c := by
  rcases c with _ | n
  · rfl
  cases n <;> rfl

mutual

/-- The lines of a statement in a deeper context. -/
theorem statement_shift (k depth : Nat) (b b' : Binding) : ∀ n : Node,
    statement ⟨k + depth, b⟩ n = (statement ⟨depth, b'⟩ n).map (Line.shift k)
  | .expressionStatement e _ => by
    simp only [statement]
    split <;> rfl
  | .returnStatement none _ => rfl
  | .returnStatement (some _) _ => rfl
  | .blockStatement ⟨ss, _⟩ => by
    have hblock := block_shift k (depth + 1) b b' ss
    simp [statement, Context.nest, Line.shift, ← hblock, Nat.add_assoc]
  | .ifStatement test consequent alternate _ => by
    have hconsequent := body_shift k (depth + 1) b b' consequent
    have halternate := body_shift k (depth + 1) b b' alternate
    simp [statement, Context.nest, Line.shift, ← hconsequent, ← halternate, Nat.add_assoc]
  | .forStatement init test update ss _ => by
    have hbody := body_shift k (depth + 1) b b' ss
    simp [statement, Context.nest, Line.shift, ← hbody, Nat.add_assoc,
      clause_context ⟨k + depth, b⟩ ⟨depth, b'⟩]
  | .whileStatement test ss _ => by
    have hbody := body_shift k (depth + 1) b b' ss
    simp [statement, Context.nest, Line.shift, ← hbody, Nat.add_assoc]
  | .breakStatement _ => rfl
  | .continueStatement _ => rfl
  | .variableDeclaration keyword ds _ => by
    simp [statement, declaration_context ⟨k + depth, b⟩ ⟨depth, b'⟩, Line.shift]
  | .functionDeclaration id params ss _ => by
    have hbody := functionBody_shift k (depth + 1) b b' ss
    simp [statement, Context.nest, Line.shift, ← hbody, Nat.add_assoc]
  | .program .. | .variableDeclarator _ | .literal .. | .identifier _ | .binaryExpression ..
  | .logicalExpression .. | .unaryExpression .. | .memberExpression .. | .callExpression ..
  | .arrayExpression .. | .updateExpression .. | .assignmentExpression .. | .unknown .. => rfl

theorem body_shift (k depth : Nat) (b b' : Binding) (c : Option Node) :
    body ⟨k + depth, b⟩ c = (body ⟨depth, b'⟩ c).map (Line.shift k) := by
  rcases c with _ | n
  · rfl
  cases n with
  | blockStatement block => exact block_shift k depth b b' block.body
  | _ => exact statement_shift k depth b b' _

theorem block_shift (k depth : Nat) (b b' : Binding) (ss : List (Option Node)) :
    block ⟨k + depth, b⟩ ss = (block ⟨depth, b'⟩ ss).map (Line.shift k) := by
  rcases ss with _ | ⟨_ | n, ss⟩
  · rfl
  · exact block_shift k depth b b' ss
  · rw [block, block, List.map_append, statement_shift k depth b b' n,
      block_shift k depth b b' ss]

theorem functionBody_shift (k depth : Nat) (b b' : Binding) (c : Option (Block Node)) :
    functionBody ⟨k + depth, b⟩ c = (functionBody ⟨depth, b'⟩ c).map (Line.shift k) := by
  cases c with
  | none => rfl
  | some block => exact block_shift k depth b b' block.body

end

/-! ## Texts -/

/-- The characters of a line with tabs in front of them, unless there are none. -/
def indentedLine (k : Nat) (line : List Char) : List Char :=
  if line = [] then [] else List.replicate k '\t' ++ line

/-- A text with tabs in front of each line that is not empty. -/
def indented (k : Nat) (text : String) : String :=
  String.ofList (['\n'].intercalate ((text.toList.splitOn '\n').map (indentedLine k)))

theorem Line.Written.newline_not_mem {l : Line} (h : l.Written) : '\n' ∉ l.text.toList := by
  cases l with
  | blank => nofun
  | code depth text =>
    intro hline
    rw [Line.text, String.toList_append, String.toList_ofList, List.mem_append] at hline
    rcases hline with htab | htext
    · exact absurd (List.mem_replicate.1 htab).2 (by decide)
    · exact h.2 htext

theorem Line.Written.text_ne_empty {depth : Nat} {text : String}
    (h : (Line.code depth text).Written) : (Line.code depth text).text ≠ "" := by
  simp [Line.text, h.1]

/-- The text of a line with more levels is the text of the line with more tabs. -/
theorem Line.Written.text_shift {l : Line} (h : l.Written) (k : Nat) :
    (l.shift k).text.toList = indentedLine k l.text.toList := by
  cases l with
  | blank => rfl
  | code depth text =>
    have hne : (Line.code depth text).text.toList ≠ [] := fun hnil =>
      h.text_ne_empty (String.toList_eq_nil_iff.1 hnil)
    rw [indentedLine, if_neg hne]
    simp [Line.shift, Line.text, ← List.replicate_append_replicate]

/-- Shifted lines are the text with more tabs. -/
theorem linesText_shift (k : Nat) {ls : List Line} (h : ∀ l ∈ ls, l.Written) :
    linesText (ls.map (Line.shift k)) = indented k (linesText ls) := by
  have hshift : ls.map (fun l => (l.shift k).text.toList)
      = (ls.map fun l => l.text.toList).map (indentedLine k) := by
    rw [List.map_map]
    exact List.map_congr_left fun l hl => (h l hl).text_shift k
  rw [← String.toList_inj, indented, String.toList_ofList, toList_linesText, toList_linesText,
    List.map_map]
  cases hls : ls with
  | nil => simp [indentedLine]
  | cons l rest =>
    rw [List.splitOn_intercalate, ← hls, ← hshift]
    · rfl
    · rw [List.forall_mem_map]
      intro l hl
      exact (h l (hls ▸ hl)).newline_not_mem
    · simp

/-- Indentation is the depth of the context, and the context shows in nothing else. -/
theorem statementText_indented {n : Node} (h : n.Avoids ['\n']) (k : Nat) (b : Binding) :
    statementText ⟨k, b⟩ n = indented k (statementText {} n) := by
  have hshift := statement_shift k 0 b .reassignable n
  rw [Nat.add_zero] at hshift
  rw [statementText, hshift, linesText_shift k ((statement_lines h).1 _)]
  rfl

/-- A function with a declaration and a text of two lines in it, two levels deep. -/
theorem statementText_indented_function :
    let x : Node := .identifier ⟨"x", {}⟩
    let text : Node := .literal (.string "a\nb") "" {}
    let n : Node := .functionDeclaration (some ⟨"f_int", {}⟩) [some x] (some ⟨[
      some (.variableDeclaration "let" [⟨some x, some text, {}⟩] {}),
      some (.whileStatement (some x) (some (.breakStatement {})) {})], {}⟩) {}
    n.Avoids ['\n'] ∧ statementText ⟨2, .fixed⟩ n = indented 2 (statementText {} n) := by
  intro x text n
  have hx : x.Avoids ['\n'] := .intro (by simp [x, Node.words]) (List.forall_mem_nil _)
  have htext : text.Avoids ['\n'] := .intro (by simp [text, Node.words]) (List.forall_mem_nil _)
  have hdeclarator : (Node.variableDeclarator ⟨some x, some text, {}⟩).Avoids ['\n'] :=
    .intro (List.forall_mem_nil _) (by simp [Node.children, hx, htext])
  have hdeclaration :
      (Node.variableDeclaration "let" [⟨some x, some text, {}⟩] {}).Avoids ['\n'] :=
    .intro (List.forall_mem_nil _) (by simp [Node.children, hdeclarator])
  have hbreak : (Node.breakStatement {}).Avoids ['\n'] := .intro (List.forall_mem_nil _) (List.forall_mem_nil _)
  have hloop : (Node.whileStatement (some x) (some (.breakStatement {})) {}).Avoids ['\n'] :=
    .intro (List.forall_mem_nil _) (by simp [Node.children, hx, hbreak])
  have hname : (Node.identifier ⟨"f_int", {}⟩).Avoids ['\n'] :=
    .intro (by simp [Node.words]) (List.forall_mem_nil _)
  have hbody : (Node.blockStatement ⟨[
      some (.variableDeclaration "let" [⟨some x, some text, {}⟩] {}),
      some (.whileStatement (some x) (some (.breakStatement {})) {})], {}⟩).Avoids ['\n'] :=
    .intro (List.forall_mem_nil _) (by simp [Node.children, hdeclaration, hloop])
  have hn : n.Avoids ['\n'] := .intro (List.forall_mem_nil _) (by simp [n, Node.children, hname, hx, hbody])
  exact ⟨hn, statementText_indented hn 2 .fixed⟩

end Scaffold.Code
