import Scaffold.Proofs.Code.Assembly
import Scaffold.Proofs.Text.Quoted

/-!
# Texts on one line

Expressions, declarations and headers are written on one line, whatever is in
their string literals, since those are quoted.  The only texts of a tree that
could break a line are its names, its operators and the source texts of its
numbers.  So the lines of a statement in a tree whose words hold no newline are
the lines of its text.

* `statement_lines`: every line of a statement is blank, or a text that is not
  empty and stands on one line.
-/

namespace Scaffold.Code

/-- A text without a newline. -/
def OneLine (s : String) : Prop := '\n' ∉ s.toList

instance (s : String) : Decidable (OneLine s) := inferInstanceAs (Decidable ('\n' ∉ s.toList))

/-! ## Texts -/

@[simp] theorem oneLine_append {s t : String} : OneLine (s ++ t) ↔ OneLine s ∧ OneLine t := by
  simp [OneLine]

theorem oneLine_quote (s : String) : OneLine (Text.quote s) := by
  intro h
  have hprintable := Text.isPrintable_of_mem_quote h
  rw [Text.not_isPrintable_newline] at hprintable
  cases hprintable

/-- A text between two fixed ones. -/
theorem oneLine_enclosed {before after s : String} (hbefore : OneLine before)
    (hafter : OneLine after) (h : OneLine s) : OneLine (before ++ s ++ after) := by
  simp [hbefore, h, hafter]

/-- A tree whose words hold no newline. -/
abbrev Unbroken (n : Node) : Prop := n.Avoids ['\n']

/-- Texts on one line make texts on one line. -/
theorem textLaw_oneLine : TextLaw ['\n'] OneLine where
  unfixed := by
    intro c hc
    rw [List.mem_singleton.1 hc]
    rfl
  plain h := h '\n' (List.mem_singleton_self _)
  quoted := oneLine_quote
  append hs ht := oneLine_append.2 ⟨hs, ht⟩
  grouped := oneLine_enclosed (by decide) (by decide)
  bracketed := oneLine_enclosed (by decide) (by decide)
  braced := oneLine_enclosed (by decide) (by decide)
  before h := (oneLine_append.1 h).1

/-! ## Statements -/

/-- Lines as one text, with newlines between them. -/
def linesText (ls : List Line) : String := "\n".intercalate (ls.map Line.text)

/-- The text of a node as a statement. -/
def statementText (ctx : Context) (n : Node) : String := linesText (statement ctx n)

theorem toList_linesText (ls : List Line) :
    (linesText ls).toList = ['\n'].intercalate (ls.map fun l => l.text.toList) := by
  rw [linesText, String.toList_intercalate, List.map_map]
  rfl

/-- A blank line, or a text that is not empty and stands on one line. -/
def Line.Written : Line → Prop
  | .blank => True
  | .code _ text => text ≠ "" ∧ OneLine text

theorem Line.written_brace (depth : Nat) : (Line.code depth "\x7d").Written :=
  ⟨by simp, by decide⟩

theorem Line.written_header {header : String} (h : OneLine header) (depth : Nat) :
    (Line.code depth (header ++ "\x7b")).Written :=
  ⟨by simp, oneLine_append.2 ⟨h, by decide⟩⟩

/-- Written lines make written lines. -/
theorem lineLaw_written : LineLaw ['\n'] OneLine fun ls => ∀ l ∈ ls, l.Written where
  toTextLaw := textLaw_oneLine
  semicolon := by decide
  marker := by decide
  nil := List.forall_mem_nil _
  line hne h := List.forall_mem_singleton.2 ⟨hne, h⟩
  blank h := List.forall_mem_cons.2 ⟨trivial, h⟩
  append_lines hls hms := List.forall_mem_append.2 ⟨hls, hms⟩
  enclosed hheader hls := by
    simp only [List.cons_append, List.forall_mem_cons, List.forall_mem_append]
    exact ⟨Line.written_header hheader _, hls, Line.written_brace _, List.forall_mem_nil _⟩
  branches hheader hls hms := by
    simp only [List.cons_append, List.append_assoc, List.forall_mem_cons, List.forall_mem_append]
    exact ⟨Line.written_header hheader _, hls, ⟨by simp, by decide⟩, hms, Line.written_brace _,
      List.forall_mem_nil _⟩

/-- The lines of a statement, and of a body that it is. -/
theorem statement_lines {n : Node} (h : Unbroken n) :
    (∀ ctx, ∀ l ∈ statement ctx n, l.Written) ∧ ∀ ctx, ∀ l ∈ body ctx (some n), l.Written :=
  lineLaw_written.statement h

end Scaffold.Code
