import Scaffold.Code.Declaration
import Scaffold.Proofs.Text.StringLiteral

/-!
# String literals in code

Three kinds of literals are written as quoted texts: a string as its value, and a
null and an object, which stands for a regular expression, as the source text.
The path of a required module is quoted as well.  Each of these texts is a string
literal for the text it was written for, so code that is read as Go gets back what
the tree holds.

A null without a source text is written as one whose source text is `null`.

* `literals_read_back`: what the four quoted texts in code are read as.
* `null_without_source`: a null without a source text is not read as the empty text.
-/

namespace Scaffold.Code

open Text (IsLiteral isLiteral_quote)

/-- A call that requires a module. -/
def requireCall (path raw : String) (calleeSpan pathSpan span : Span) : Node :=
  .callExpression (some (.identifier ⟨"require", calleeSpan⟩))
    [some (.literal (.string path) raw pathSpan)] span

/-- A constant that is set to a required module is written as an import, wherever it stands in its
declaration. -/
theorem declaration_import (ctx : Context) (target : Identifier) (path raw : String)
    (calleeSpan pathSpan callSpan span : Span) (before after : List (Declarator Node)) :
    declaration ctx "const" (before ++ ⟨some (.identifier target),
        some (requireCall path raw calleeSpan pathSpan callSpan), span⟩ :: after)
      = declaration ctx "const" before
        ++ ("import " ++ target.name ++ " " ++ Text.quote path)
          :: declaration ctx "const" after := by
  have hne : "import " ++ target.name ++ " " ++ Text.quote path ≠ "" := by
    rw [ne_eq, ← String.toList_inj]
    simp
  rw [declaration_append]
  exact congrArg _ (List.filter_cons_of_pos (decide_eq_true hne))

/-- The quoted texts in code are literals for what they were written for: the value of a string, the
source text of a null or of a regular expression, and the path of an import.  No text is a literal
for two values. -/
theorem literals_read_back (s : String) :
    (∀ place raw span, IsLiteral (expression place (.literal (.string s) raw span)) s) ∧
    (∀ place span, IsLiteral (expression place (.literal .null s span))
      (if s = "" then "null" else s)) ∧
    (∀ place members span, IsLiteral (expression place (.literal (.object members) s span)) s) ∧
    (∀ ctx target raw calleeSpan pathSpan callSpan span before after, ∃ text,
      declaration ctx "const" (before ++ ⟨some (.identifier target),
          some (requireCall s raw calleeSpan pathSpan callSpan), span⟩ :: after)
        = declaration ctx "const" before
          ++ ("import " ++ target.name ++ " " ++ text) :: declaration ctx "const" after ∧
      IsLiteral text s) ∧
    ∀ t text, IsLiteral text s → IsLiteral text t → s = t := by
  refine ⟨fun _ _ _ => isLiteral_quote s, fun _ _ => isLiteral_quote _,
    fun _ _ _ => isLiteral_quote s, ?_, fun _ _ hs ht => hs.inj ht⟩
  intro ctx target raw calleeSpan pathSpan callSpan span before after
  exact ⟨Text.quote s, declaration_import .., isLiteral_quote s⟩

/-- A null without a source text is written as the text `null` and not as the empty text. -/
theorem null_without_source : ¬ IsLiteral (expression .free (.literal .null "" {})) "" := by
  intro hempty
  have hnull : IsLiteral (expression .free (.literal .null "" {})) "null" := isLiteral_quote "null"
  exact absurd (hnull.inj hempty) (by decide)

end Scaffold.Code
