import Mathlib.Data.List.Forall2
import Scaffold.Proofs.Code.Indentation

/-!
# Blank lines and functions

The functions of a program are met in source order when its statements are read
one by one, each before the statements inside it.  `Node.inner` gives the
statements right inside a statement, and `Node.functions` the functions that are
met, each with its nesting depth.

A function is announced by three lines: a blank one, its header and the review
marker.  `Marked` says of the lines of statements that their blank lines are the
ones that announce given functions, in order.  `marked_statement` shows it of every
statement, by induction over the tree.  What is written as nothing leaves no line
behind, so a file has no other empty lines.

* `unit_blank_lines`: the empty lines of a unit are those in front of its functions.
-/

namespace Scaffold

/-! ## Functions of a program -/

namespace Node

/-- The statements of a body: those of a block, or the one that it is. -/
def bodyStatements : Option Node → List Node
  | none => []
  | some (.blockStatement b) => b.body.filterMap id
  | some n => [n]

/-- The statements right inside a statement, in order.  A block that is the body of another
statement is none of them, but its statements are. -/
def inner : Node → List Node
  | .blockStatement b => b.body.filterMap id
  | .ifStatement _ consequent alternate _ => bodyStatements consequent ++ bodyStatements alternate
  | .forStatement _ _ _ body _ => bodyStatements body
  | .whileStatement _ body _ => bodyStatements body
  | .functionDeclaration _ _ body _ => bodyStatements (body.map .blockStatement)
  | _ => []

/-- Whether a node is a function. -/
def isFunction : Node → Bool
  | .functionDeclaration .. => true
  | _ => false

theorem sizeOf_le_of_mem_bodyStatements {m : Node} {c : Option Node}
    (h : m ∈ bodyStatements c) : ∃ n, c = some n ∧ sizeOf m ≤ sizeOf n := by
  rcases c with _ | n
  · cases h
  refine ⟨n, rfl, ?_⟩
  cases n with
  | blockStatement b => exact (sizeOf_lt_of_mem_children h).le
  | _ => exact (congrArg sizeOf (List.mem_singleton.1 h)).le

theorem sizeOf_lt_of_mem_inner {m n : Node} (h : m ∈ n.inner) : sizeOf m < sizeOf n := by
  have hbody {c : Option Node} (hm : m ∈ bodyStatements c) (hc : ∀ k ∈ c, k ∈ n.children) :
      sizeOf m < sizeOf n := by
    obtain ⟨k, rfl, hle⟩ := sizeOf_le_of_mem_bodyStatements hm
    exact hle.trans_lt (sizeOf_lt_of_mem_children (hc k rfl))
  cases n with
  | blockStatement b => exact sizeOf_lt_of_mem_children h
  | ifStatement test consequent alternate =>
    rcases List.mem_append.1 h with hm | hm
    · exact hbody hm (by simp +contextual [children])
    · exact hbody hm (by simp +contextual [children])
  | forStatement init test update body => exact hbody h (by simp +contextual [children])
  | whileStatement test body => exact hbody h (by simp +contextual [children])
  | functionDeclaration id params body => exact hbody h (by simp +contextual [children])
  | _ => cases h

/-- The functions among a statement at a depth and the statements inside it, in source order, each
with its own depth. -/
def functions (depth : Nat) (n : Node) : List (Nat × Node) :=
  (if n.isFunction then [(depth, n)] else [])
    ++ n.inner.attach.flatMap fun m => m.1.functions (depth + 1)
termination_by sizeOf n
decreasing_by exact sizeOf_lt_of_mem_inner m.2

theorem functions_eq (depth : Nat) (n : Node) : n.functions depth =
    (if n.isFunction then [(depth, n)] else []) ++ n.inner.flatMap (functions (depth + 1)) := by
  rw [functions, ← List.flatMap_map, List.attach_map_subtype_val]

end Node

namespace Code

/-! ## Lines that announce functions -/

/-- Lines whose blank ones announce functions at their depths, in order. -/
inductive Marked : List Line → List (Nat × Node) → Prop where
  | nil : Marked [] []
  | code {depth : Nat} {text : String} {ls : List Line} {fs : List (Nat × Node)} :
      Marked ls fs → Marked (.code depth text :: ls) fs
  | function {depth : Nat} {id : Option Identifier} {params : List (Option Node)}
      {body : Option (Block Node)} {span : Span} {ls : List Line} {fs : List (Nat × Node)} :
      Marked ls fs →
      Marked (.blank :: .code depth (functionHeader id params)
          :: .code (depth + 1) reviewMarker :: ls)
        ((depth, .functionDeclaration id params body span) :: fs)

namespace Marked
variable {ls ms : List Line} {fs gs : List (Nat × Node)}

theorem append (h : Marked ls fs) (h' : Marked ms gs) : Marked (ls ++ ms) (fs ++ gs) := by
  induction h with
  | nil => exact h'
  | code _ ih => exact .code ih
  | function _ ih => exact .function ih

/-- Lines of code announce nothing. -/
theorem texts (depth : Nat) (texts : List String) : Marked (texts.map (.code depth)) [] := by
  induction texts with
  | nil => exact .nil
  | cons text texts ih => exact .code ih

/-- Lines before a closing brace. -/
theorem closed (h : Marked ls fs) (depth : Nat) : Marked (ls ++ [.code depth "\x7d"]) fs := by
  simpa using h.append (texts depth ["\x7d"])

end Marked

/-! ## Statements -/

theorem marked_block {ctx : Context} {ss : List (Option Node)}
    (h : ∀ n, some n ∈ ss → Marked (statement ctx n) (n.functions ctx.depth)) :
    Marked (block ctx ss) ((ss.filterMap id).flatMap (Node.functions ctx.depth)) := by
  induction ss with
  | nil => exact .nil
  | cons s ss ih =>
    have hrest := ih fun n hn => h n (List.mem_cons_of_mem _ hn)
    cases s with
    | none => exact hrest
    | some n => exact (h n List.mem_cons_self).append hrest

/-- The lines of a statement announce its functions, and so do those of a body that it is.  The
induction is over the tree, and a body is covered with its statement since the block that it may be
has no lines of its own there. -/
theorem marked_statement (n : Node) :
    (∀ ctx, Marked (statement ctx n) (n.functions ctx.depth)) ∧
    ∀ ctx, Marked (body ctx (some n))
      ((Node.bodyStatements (some n)).flatMap (Node.functions ctx.depth)) := by
  induction n using Node.induction_children with
  | step n ih =>
    have hblock {ss : List (Option Node)} (hss : ∀ m, some m ∈ ss → m ∈ n.children)
        (ctx : Context) :
        Marked (block ctx ss) ((ss.filterMap id).flatMap (Node.functions ctx.depth)) :=
      marked_block fun m hm => (ih m (hss m hm)).1 ctx
    have hbody {c : Option Node} (hc : ∀ m ∈ c, m ∈ n.children) (ctx : Context) :
        Marked (body ctx c) ((Node.bodyStatements c).flatMap (Node.functions ctx.depth)) := by
      cases c with
      | none => exact .nil
      | some m => exact (ih m (hc m rfl)).2 ctx
    have hstatement (ctx : Context) : Marked (statement ctx n) (n.functions ctx.depth) := by
      rw [Node.functions_eq]
      cases n with
      | expressionStatement e span =>
        rw [statement]
        split
        · exact .nil
        · exact .code .nil
      | returnStatement argument span =>
        cases argument with
        | none => exact .code .nil
        | some m => exact .code .nil
      | breakStatement span => exact .code .nil
      | continueStatement span => exact .code .nil
      | variableDeclaration keyword ds span => exact .texts ctx.depth _
      | blockStatement b =>
        exact (Marked.code (hblock (by simp [Node.children]) ctx.nest)).closed _
      | ifStatement test consequent alternate span =>
        have hconsequent := hbody (c := consequent) (by simp +contextual [Node.children]) ctx.nest
        have halternate := hbody (c := alternate) (by simp +contextual [Node.children]) ctx.nest
        rw [Node.inner, List.flatMap_append]
        exact ((Marked.code hconsequent).append (.code halternate)).closed _
      | forStatement init test update statements span =>
        exact (Marked.code (hbody (by simp +contextual [Node.children]) ctx.nest)).closed _
      | whileStatement test statements span =>
        exact (Marked.code (hbody (by simp +contextual [Node.children]) ctx.nest)).closed _
      | functionDeclaration id params statements span =>
        have hlines : Marked (functionBody ctx.nest statements)
            ((Node.bodyStatements (statements.map .blockStatement)).flatMap
              (Node.functions (ctx.depth + 1))) := by
          cases statements with
          | none => exact .nil
          | some b => exact hbody (c := some (.blockStatement b)) (by simp [Node.children]) ctx.nest
        exact (Marked.function hlines).closed _
      | _ => exact .nil
    refine ⟨hstatement, fun ctx => ?_⟩
    have hsingle : Marked (statement ctx n) ([n].flatMap (Node.functions ctx.depth)) := by
      simpa using hstatement ctx
    cases n with
    | blockStatement b => exact hblock (by simp [Node.children]) ctx
    | _ => exact hsingle

/-! ## Lines of a file -/

/-- The lines of a text that are ended by a newline. -/
def fileLines (text : String) : List String :=
  (text.toList.splitOn '\n').dropLast.map String.ofList

theorem toList_fileText (lines : List String) :
    (fileText lines).toList = ['\n'].intercalate (lines.map String.toList ++ [[]]) := by
  induction lines with
  | nil => rfl
  | cons line lines ih =>
    have hcons : fileText (line :: lines) = line ++ "\n" ++ fileText lines := by simp [fileText]
    rw [hcons, String.toList_append, ih]
    cases lines with
    | nil => simp
    | cons next lines => simp [List.intercalate_cons_cons]

/-- A file of texts without newlines has them for its lines. -/
theorem fileLines_fileText {lines : List String} (h : ∀ line ∈ lines, OneLine line) :
    fileLines (fileText lines) = lines := by
  have hparts : ∀ part ∈ lines.map String.toList ++ [[]], '\n' ∉ part := by
    rw [List.forall_mem_append, List.forall_mem_map, List.forall_mem_singleton]
    exact ⟨h, List.not_mem_nil⟩
  rw [fileLines, toList_fileText, List.splitOn_intercalate '\n' hparts (by simp),
    List.dropLast_concat, List.map_map]
  simp [Function.comp_def]

/-- The indices of the empty lines, in order. -/
def emptyLines (lines : List String) : List Nat :=
  (List.range lines.length).filter fun i => lines[i]? = some ""

theorem emptyLines_cons (line : String) (lines : List String) : emptyLines (line :: lines) =
    (if line = "" then [0] else []) ++ (emptyLines lines).map (· + 1) := by
  rw [emptyLines, emptyLines, List.length_cons, List.range_succ_eq_map, List.filter_cons,
    List.filter_map]
  by_cases h : line = "" <;> simp [h, Function.comp_def]

/-! ## Empty lines -/

/-- The text of some levels of indentation. -/
def tabs (depth : Nat) : String := String.ofList (List.replicate depth '\t')

/-- At an index an empty line announces a function at a depth.  The line after it is the header of
the function, and the next one is the review marker. -/
def Announces (lines : List String) (i : Nat) (f : Nat × Node) : Prop :=
  ∃ id params body span signature, f.2 = .functionDeclaration id params body span ∧
    functionHeader id params = "func " ++ signature ++ "\x7b" ∧
    lines[i]? = some "" ∧
    lines[i + 1]? = some (tabs f.1 ++ ("func " ++ signature ++ "\x7b")) ∧
    lines[i + 2]? = some (tabs (f.1 + 1) ++ reviewMarker)

/-- The empty lines announce functions, one each and in order. -/
abbrev Announced (lines : List String) (fs : List (Nat × Node)) : Prop :=
  List.Forall₂ (Announces lines) (emptyLines lines) fs

theorem functionHeader_eq (id : Option Identifier) (params : List (Option Node)) :
    ∃ signature, functionHeader id params = "func " ++ signature ++ "\x7b" := by
  have hsignature (i : Inferred) (params : String) : ∃ signature,
      "func " ++ i.name ++ params ++ " " ++ i.type ++ "\x7b" = "func " ++ signature ++ "\x7b" :=
    ⟨i.name ++ params ++ " " ++ i.type, by simp only [String.append_assoc]⟩
  exact hsignature _ _

/-- Lines further down announce what they announced. -/
theorem announces_below {line : String} {lines : List String} {fs : List (Nat × Node)}
    (h : Announced lines fs) :
    List.Forall₂ (Announces (line :: lines)) ((emptyLines lines).map (· + 1)) fs :=
  List.forall₂_map_left_iff.2 h

/-- A line that is not empty announces nothing. -/
theorem announced_cons {line : String} {lines : List String} {fs : List (Nat × Node)}
    (hne : line ≠ "") (h : Announced lines fs) : Announced (line :: lines) fs := by
  rw [Announced, emptyLines_cons, if_neg hne]
  exact announces_below h

/-- The empty lines of written lines are the blank ones. -/
theorem Marked.announced {ls : List Line} {fs : List (Nat × Node)} (h : Marked ls fs)
    (hwritten : ∀ l ∈ ls, l.Written) : Announced (ls.map Line.text) fs := by
  induction h with
  | nil => exact .nil
  | code _ ih =>
    rw [List.forall_mem_cons] at hwritten
    exact announced_cons hwritten.1.text_ne_empty (ih hwritten.2)
  | @function depth id params body span ls fs _ ih =>
    simp only [List.forall_mem_cons] at hwritten
    obtain ⟨-, hheader, hmarker, hrest⟩ := hwritten
    have hbelow := announced_cons hheader.text_ne_empty
      (announced_cons hmarker.text_ne_empty (ih hrest))
    obtain ⟨signature, hsignature⟩ := functionHeader_eq id params
    simp only [List.map_cons]
    rw [Announced, emptyLines_cons, if_pos (show Line.blank.text = "" from rfl)]
    refine .cons ⟨id, params, body, span, signature, rfl, hsignature, rfl, ?_, rfl⟩
      (announces_below hbelow)
    rw [← hsignature]
    rfl

/-- The lines of a unit are the header and the lines of its statements. -/
theorem fileLines_unit {statements : List (Option Node)} {sourceType : String} {span : Span}
    (h : (Node.program statements sourceType span).Avoids ['\n']) :
    (∀ l ∈ block {} statements, l.Written) ∧
    fileLines (fileText (header ++ (block {} statements).map Line.text))
      = header ++ (block {} statements).map Line.text := by
  have hwritten : ∀ l ∈ block {} statements, l.Written := by
    refine lineLaw_written.block fun n hn => ?_
    have hn' : n ∈ (Node.program statements sourceType span).children := by
      simpa [Node.children] using hn
    exact (statement_lines (h.children n hn')).1 {}
  refine ⟨hwritten, fileLines_fileText ?_⟩
  rw [List.forall_mem_append, List.forall_mem_map]
  exact ⟨by decide, fun l hl => (hwritten l hl).newline_not_mem⟩

/-- The empty lines of a unit are those in front of its functions.  They stand there one for each
function that is reached from the program through statements, in order.  Each is followed by the
header of its function, indented by the nesting depth, and by the review marker one level deeper, so
no other statement leaves an empty line. -/
theorem unit_blank_lines {statements : List (Option Node)} {sourceType : String} {span : Span}
    (h : (Node.program statements sourceType span).Avoids ['\n']) :
    ∃ text, unit (some (.program statements sourceType span)) = .ok text ∧
      fileText (fileLines text) = text ∧
      List.Forall₂ (Announces (fileLines text)) (emptyLines (fileLines text))
        ((statements.filterMap id).flatMap (Node.functions 0)) := by
  have hmarked : Marked (block {} statements)
      ((statements.filterMap id).flatMap (Node.functions 0)) :=
    marked_block fun n _ => (marked_statement n).1 {}
  obtain ⟨hwritten, hlines⟩ := fileLines_unit h
  refine ⟨_, rfl, by rw [hlines], ?_⟩
  rw [hlines]
  exact announced_cons (by decide) (announced_cons (by decide) (hmarked.announced hwritten))

/-- A function with a function for a branch, without a block, and one in a block of its own.  A
statement that is written as nothing stands between them. -/
theorem unit_blank_lines_nested :
    let x : Node := .identifier ⟨"x", {}⟩
    let g : Node := .functionDeclaration (some ⟨"g", {}⟩) [some x] none {}
    let h : Node := .functionDeclaration (some ⟨"h_int", {}⟩) [] (some ⟨[], {}⟩) {}
    let f : Node := .functionDeclaration none [] (some ⟨[
      some (.ifStatement (some x) (some g) none {}),
      some (.expressionStatement (some (.unknown "Super" {})) {}),
      some (.blockStatement ⟨[some h], {}⟩)], {}⟩) {}
    (Node.program [some f] "" {}).Avoids ['\n'] ∧
    ∃ text, unit (some (.program [some f] "" {})) = .ok text ∧
      emptyLines (fileLines text) = [2, 6, 13] ∧
      List.Forall₂ (Announces (fileLines text)) [2, 6, 13] [(0, f), (2, g), (2, h)] := by
  intro x g h f
  have havoids : (Node.program [some f] "" {}).Avoids ['\n'] := Node.avoids_iff_all.2 rfl
  obtain ⟨text, hunit, -, hlines⟩ := unit_blank_lines havoids
  have hempty : emptyLines (fileLines text) = [2, 6, 13] := by
    rw [← Except.ok.inj hunit, (fileLines_unit havoids).2]
    decide +kernel
  have hfunctions : ([some f].filterMap id).flatMap (Node.functions 0)
      = [(0, f), (2, g), (2, h)] := by
    simp [f, g, h, Node.functions_eq, Node.inner, Node.bodyStatements, Node.isFunction]
  rw [hempty, hfunctions] at hlines
  exact ⟨havoids, text, hunit, hempty, hlines⟩

end Code

end Scaffold
