import Scaffold.Proofs.Code.Assembly
import Scaffold.Proofs.Text.Brackets

/-!
# Brackets of units

Brackets are opened and closed by calls, indexes, arrays, groups, array types,
parameters, blocks, branches, loops and functions.  Every text that the writer
puts together is well bracketed, and so are the lines of every statement: a
header that opens a brace is followed by a body and a line that closes it.  What
is dropped was well bracketed, and a string literal hides its brackets.

* `unit_wellBracketed`: the unit of a program whose words hold no bracket, quote,
  backslash or newline is well bracketed.
-/

namespace Scaffold.Code

open Text (WellBracketed)

/-- The characters that words must not hold: brackets, quotes, backslashes and newlines. -/
def bracketMarks : List Char := "()[]\x7b\x7d\"\\\n".toList

theorem mem_bracketMarks {c : Char} (h : Text.isBracket c = true) : c ∈ bracketMarks := by
  have hsubset : "()[]\x7b\x7d".toList.all bracketMarks.contains = true := rfl
  exact List.contains_iff_mem.1 (List.all_eq_true.1 hsubset c (List.contains_iff_mem.1 h))

/-- Well bracketed texts make well bracketed texts. -/
theorem textLaw_wellBracketed : TextLaw bracketMarks WellBracketed where
  unfixed := by
    have hall : bracketMarks.all (fun c => !isFixedChar c) = true := rfl
    intro c hc
    simpa using List.all_eq_true.1 hall c hc
  plain h := by
    refine .plain (h '"' (List.contains_iff_mem.1 rfl)) ?_
    intro c hc
    by_contra hbracket
    exact h c (mem_bracketMarks (Bool.not_eq_false _ ▸ hbracket)) hc
  quoted := .quoted
  append := .append
  grouped := .enclosed rfl rfl rfl
  bracketed := .enclosed rfl rfl rfl
  braced := .enclosed rfl rfl rfl
  before := .before

/-! ## Lines -/

/-- Lines as the text of a file. -/
def linesFile (ls : List Line) : String := fileText (ls.map Line.text)

theorem linesFile_nil : linesFile [] = "" := rfl

theorem linesFile_cons (l : Line) (ls : List Line) :
    linesFile (l :: ls) = l.text ++ "\n" ++ linesFile ls := by
  simp [linesFile, fileText]

theorem linesFile_append (ls ms : List Line) :
    linesFile (ls ++ ms) = linesFile ls ++ linesFile ms := by
  simp [linesFile, fileText]

theorem wellBracketed_newline : WellBracketed "\n" := ⟨['\n'], rfl, .nil⟩

theorem wellBracketed_tabs (depth : Nat) :
    WellBracketed (String.ofList (List.replicate depth '\t')) := by
  have htab : ∀ c ∈ (String.ofList (List.replicate depth '\t')).toList, c = '\t' := by
    intro c hc
    rw [String.toList_ofList] at hc
    exact (List.mem_replicate.1 hc).2
  refine .plain (fun hquote => ?_) (fun c hc => ?_)
  · cases htab _ hquote
  · rw [htab c hc]
    rfl

/-- A header, the lines of a body and a closing brace. -/
theorem linesFile_enclosed (depth : Nat) (header : String) (ls : List Line) :
    linesFile (.code depth (header ++ "\x7b") :: ls ++ [.code depth "\x7d"]) =
      String.ofList (List.replicate depth '\t') ++ header
        ++ ("\x7b" ++ ("\n" ++ linesFile ls ++ String.ofList (List.replicate depth '\t')) ++ "\x7d")
        ++ "\n" := by
  simp only [linesFile_cons, linesFile_append, linesFile_nil, Line.text, List.cons_append,
    String.append_assoc, String.append_empty]

/-- Two branches are a body in braces, the word between them and another body in braces. -/
theorem linesFile_branches (depth : Nat) (header : String) (ls ms : List Line) :
    linesFile (.code depth (header ++ "\x7b") :: ls ++ .code depth "\x7d else \x7b" :: ms
        ++ [.code depth "\x7d"]) =
      String.ofList (List.replicate depth '\t') ++ header
        ++ ("\x7b" ++ ("\n" ++ linesFile ls ++ String.ofList (List.replicate depth '\t')) ++ "\x7d")
        ++ " else "
        ++ ("\x7b" ++ ("\n" ++ linesFile ms ++ String.ofList (List.replicate depth '\t')) ++ "\x7d")
        ++ "\n" := by
  rw [show "\x7d else \x7b" = "\x7d" ++ " else " ++ "\x7b" by rfl]
  simp only [linesFile_cons, linesFile_append, linesFile_nil, Line.text, List.cons_append,
    List.append_assoc, String.append_assoc, String.append_empty]

/-- A body in braces. -/
theorem wellBracketed_body {ls : List Line} (h : WellBracketed (linesFile ls)) (depth : Nat) :
    WellBracketed ("\x7b" ++ ("\n" ++ linesFile ls
      ++ String.ofList (List.replicate depth '\t')) ++ "\x7d") :=
  .enclosed rfl rfl rfl (.append (.append wellBracketed_newline h) (wellBracketed_tabs depth))

/-- Well bracketed lines make well bracketed lines. -/
theorem lineLaw_wellBracketed :
    LineLaw bracketMarks WellBracketed fun ls => WellBracketed (linesFile ls) where
  toTextLaw := textLaw_wellBracketed
  semicolon := ⟨[';', ' '], rfl, .nil⟩
  marker := ⟨reviewMarker.toList, rfl, .nil⟩
  nil := textLaw_wellBracketed.empty
  line _ h := by
    rw [linesFile_cons]
    exact .append (.append (.append (wellBracketed_tabs _) h) wellBracketed_newline)
      textLaw_wellBracketed.empty
  blank h := by
    rw [linesFile_cons]
    exact .append (.append textLaw_wellBracketed.empty wellBracketed_newline) h
  append_lines hls hms := by
    rw [linesFile_append]
    exact .append hls hms
  enclosed hheader hls := by
    rw [linesFile_enclosed]
    refine .append (.append ?_ (wellBracketed_body hls _)) wellBracketed_newline
    exact .append (wellBracketed_tabs _) hheader
  branches hheader hls hms := by
    rw [linesFile_branches]
    refine .append (.append (.append (.append ?_ (wellBracketed_body hls _)) ?_)
      (wellBracketed_body hms _)) wellBracketed_newline
    · exact .append (wellBracketed_tabs _) hheader
    · exact textLaw_wellBracketed.fixed rfl

/-! ## Units -/

theorem wellBracketed_header : WellBracketed (fileText header) := by
  refine ⟨"package main\nimport \n".toList, ?_, .nil⟩
  rfl

/-- The unit of a program is well bracketed, whatever it drops and whatever its string literals
hold. -/
theorem unit_wellBracketed {statements : List (Option Node)} {sourceType : String} {span : Span}
    (h : (Node.program statements sourceType span).Avoids bracketMarks) :
    ∃ text, unit (some (.program statements sourceType span)) = .ok text ∧
      WellBracketed text := by
  refine ⟨_, rfl, ?_⟩
  have hblock : WellBracketed (linesFile (block {} statements)) := by
    refine lineLaw_wellBracketed.block ?_
    intro n hn
    exact (lineLaw_wellBracketed.statement (h.children n (by simpa [Node.children] using hn))).1 _
  have htext : fileText (header ++ (block {} statements).map Line.text)
      = fileText header ++ linesFile (block {} statements) := by
    simp [linesFile, fileText]
  rw [htext]
  exact .append wellBracketed_header hblock

/-- A loop over an array type, with a text full of brackets, an index into nothing and a construct
that is dropped. -/
theorem unit_wellBracketed_loop :
    let xs : Node := .identifier ⟨"xs_arr_3_int", {}⟩
    let text : Node := .literal (.string "])\x7b\"\\(") "" {}
    let array : Node := .arrayExpression [some text, none] {}
    let index : Node := .memberExpression (some xs) none true {}
    let loop : Node :=
      .forStatement (some (.variableDeclaration "var" [⟨some xs, some array, {}⟩] {}))
        (some (.unknown "(" {})) none (some (.expressionStatement (some index) {})) {}
    let program : Node := .program [none, some loop] "[" {}
    program.Avoids bracketMarks ∧
      ∃ code, unit (some program) = .ok code ∧ WellBracketed code := by
  intro xs text array index loop program
  have hxs : xs.Avoids bracketMarks := by
    refine .intro ?_ (List.forall_mem_nil _)
    have hall : bracketMarks.all (fun c => !"xs_arr_3_int".toList.contains c) = true := rfl
    intro word hword c hc
    rw [List.mem_singleton.1 hword]
    simpa using List.all_eq_true.1 hall c hc
  have htext : text.Avoids bracketMarks := .intro (List.forall_mem_nil _) (List.forall_mem_nil _)
  have harray : array.Avoids bracketMarks :=
    .intro (List.forall_mem_nil _) (by simp [array, Node.children, htext])
  have hindex : index.Avoids bracketMarks :=
    .intro (List.forall_mem_nil _) (by simp [index, Node.children, hxs])
  have hdeclarator : (Node.variableDeclarator ⟨some xs, some array, {}⟩).Avoids bracketMarks :=
    .intro (List.forall_mem_nil _) (by simp [Node.children, hxs, harray])
  have hdeclaration :
      (Node.variableDeclaration "var" [⟨some xs, some array, {}⟩] {}).Avoids bracketMarks :=
    .intro (List.forall_mem_nil _) (by simp [Node.children, hdeclarator])
  have hunknown : (Node.unknown "(" {}).Avoids bracketMarks :=
    .intro (List.forall_mem_nil _) (List.forall_mem_nil _)
  have hbody : (Node.expressionStatement (some index) {}).Avoids bracketMarks :=
    .intro (List.forall_mem_nil _) (by simp [Node.children, hindex])
  have hloop : loop.Avoids bracketMarks :=
    .intro (List.forall_mem_nil _) (by simp [loop, Node.children, hdeclaration, hunknown, hbody])
  have hprogram : program.Avoids bracketMarks :=
    .intro (List.forall_mem_nil _) (by simp [program, Node.children, hloop])
  exact ⟨hprogram, unit_wellBracketed hprogram⟩

end Scaffold.Code
