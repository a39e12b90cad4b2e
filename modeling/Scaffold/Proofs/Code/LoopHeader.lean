import Scaffold.Proofs.Code.Losses
import Scaffold.Proofs.Text.Brackets

/-!
# Clauses of loop headers

A loop header in Go has no clause or three, and two semicolons between three
clauses.  The header of a loop is put together from an initial clause, a test and
an update.  The test is an expression, and no expression holds a semicolon
outside its string literals.  The other two may be declarations.  Each of their
declarators that can be written is a text of its own, and these texts are joined
with semicolons.  So every declarator after the first of a clause is read as a
further clause.

* `statement_loop_semicolons`: a loop header without clauses has no semicolon.
  Any other has two, and one more for every further declarator of a clause.
* `statement_loop_four_clauses`: a loop over two indices has a header of four
  clauses.
-/

namespace Scaffold

/-! ## Semicolons outside string literals -/

namespace Text

/-- How many semicolons a text holds outside its string literals.  There is no answer when the last
literal is not closed. -/
def semicolons? (s : String) : Option Nat := (outside? .code s.toList).map (List.count ';')

theorem semicolons?_append {s t : String} {m n : Nat} (hs : semicolons? s = some m)
    (ht : semicolons? t = some n) : semicolons? (s ++ t) = some (m + n) := by
  obtain ⟨outer, houter, rfl⟩ := Option.map_eq_some_iff.1 hs
  obtain ⟨outer', houter', rfl⟩ := Option.map_eq_some_iff.1 ht
  rw [semicolons?, String.toList_append, outside?_append houter, houter', Option.map_some,
    Option.map_some, List.count_append]

theorem semicolons?_plain {s : String} (hquote : '"' ∉ s.toList) (hsemicolon : ';' ∉ s.toList) :
    semicolons? s = some 0 := by
  rw [semicolons?, outside?_plain hquote, Option.map_some, List.count_eq_zero_of_not_mem hsemicolon]

theorem semicolons?_quote (s : String) : semicolons? (quote s) = some 0 := by
  rw [semicolons?, outside?_quote]
  rfl

theorem semicolons?_before {s : String} {n : Nat} (h : semicolons? (s ++ " ") = some n) :
    semicolons? s = some n := by
  obtain ⟨outer, houter, rfl⟩ := Option.map_eq_some_iff.1 h
  rw [String.toList_append] at houter
  obtain ⟨outer', houter', rfl⟩ := outside?_space houter
  rw [semicolons?, houter', Option.map_some, List.count_append]
  rfl

/-- A text between two others without semicolons. -/
theorem semicolons?_enclosed {a s b : String} (ha : semicolons? a = some 0) {n : Nat}
    (hs : semicolons? s = some n) (hb : semicolons? b = some 0) :
    semicolons? (a ++ s ++ b) = some n := by
  have h := semicolons?_append (semicolons?_append ha hs) hb
  rwa [Nat.zero_add, Nat.add_zero] at h

/-- Texts joined with semicolons have one between each two of them. -/
theorem semicolons?_intercalate {parts : List String} (h : ∀ p ∈ parts, semicolons? p = some 0) :
    semicolons? ("; ".intercalate parts) = some (parts.length - 1) := by
  induction parts with
  | nil => rfl
  | cons p parts ih =>
    rw [List.forall_mem_cons] at h
    cases parts with
    | nil => simpa using h.1
    | cons q parts =>
      have hjoined := semicolons?_append (semicolons?_append h.1 (n := 1) (t := "; ") rfl) (ih h.2)
      rw [String.intercalate_cons_cons, hjoined]
      simp [Nat.add_comm]

end Text

namespace Code

/-- The characters that words must not hold: semicolons, quotes and newlines. -/
def headerMarks : List Char := ";\"\n".toList

/-- No expression and no declarator holds a semicolon outside its string literals. -/
theorem textLaw_semicolons : TextLaw headerMarks fun s => Text.semicolons? s = some 0 where
  unfixed := by
    have hall : headerMarks.all (fun c => !isFixedChar c) = true := rfl
    intro c hc
    simpa using List.all_eq_true.1 hall c hc
  plain h := Text.semicolons?_plain (h '"' (List.contains_iff_mem.1 rfl))
    (h ';' (List.contains_iff_mem.1 rfl))
  quoted := Text.semicolons?_quote
  append hs ht := Text.semicolons?_append hs ht
  grouped h := Text.semicolons?_enclosed rfl h rfl
  bracketed h := Text.semicolons?_enclosed rfl h rfl
  braced h := Text.semicolons?_enclosed rfl h rfl
  before := Text.semicolons?_before

/-! ## Clauses -/

/-- How many declarators of a clause can be written: those whose target is an identifier.  A clause
that is not a declaration has none. -/
def declared : Option Node → Nat
  | some (.variableDeclaration _ ds _) => ds.countP fun d => (d.id.bind name?).isSome
  | _ => 0

theorem length_declaration (ctx : Context) (keyword : String) (ds : List (Declarator Node)) :
    (declaration ctx keyword ds).length = ds.countP fun d => (d.id.bind name?).isSome := by
  rw [declaration, ← List.countP_eq_length_filter, List.countP_map]
  congr 1
  funext d
  cases h : (d.id.bind name?).isSome <;> simp [declarator_eq_empty, h]

/-- A clause holds a semicolon in front of each declarator but the first. -/
theorem semicolons?_clause (ctx : Context) {c : Option Node} (h : ∀ n ∈ c, n.Avoids headerMarks) :
    Text.semicolons? (clause ctx c) = some (declared c - 1) := by
  rcases c with _ | n
  · rfl
  cases n with
  | variableDeclaration keyword ds span =>
    have htexts := textLaw_semicolons.declaration { ctx with depth := 0 } keyword (h _ rfl)
    rw [clause, Text.semicolons?_intercalate htexts, length_declaration, declared]
  | _ => exact textLaw_semicolons.expression? h .free

theorem declared_of_clause_empty {ctx : Context} {c : Option Node}
    (h : Text.semicolons? (clause ctx c) = some (declared c - 1)) (hempty : clause ctx c = "") :
    declared c ≤ 1 := by
  have hnone : Text.semicolons? "" = some 0 := rfl
  rw [hempty, hnone, Option.some.injEq] at h
  omega

/-! ## Headers -/

/-- What stands between the word `for` and the opening brace of a loop header. -/
def headerClauses (init test update : String) : String :=
  if init = "" ∧ test = "" ∧ update = "" then " "
  else " " ++ String.ofList
    (Text.trimEnd (· = ' ') (init ++ "; " ++ test ++ "; " ++ update).toList) ++ " "

theorem loopHeader_eq (init test update : String) :
    loopHeader init test update = "for" ++ headerClauses init test update ++ "\x7b" := by
  rw [loopHeader, headerClauses]
  split
  · rfl
  · rw [show "for " = "for" ++ " " by rfl, show " \x7b" = " " ++ "\x7b" by rfl]
    simp only [String.append_assoc]

theorem semicolons?_headerClauses {init test update : String} {m n : Nat}
    (hi : Text.semicolons? init = some m) (ht : Text.semicolons? test = some 0)
    (hu : Text.semicolons? update = some n) :
    Text.semicolons? (headerClauses init test update) =
      some (if init = "" ∧ test = "" ∧ update = "" then 0 else 2 + m + n) := by
  have hjoint : Text.semicolons? "; " = some 1 := rfl
  rw [headerClauses]
  split
  · rfl
  · have hclauses := Text.semicolons?_append (Text.semicolons?_append (Text.semicolons?_append
      (Text.semicolons?_append hi hjoint) ht) hjoint) hu
    have htotal : m + 1 + 0 + 1 + n = 2 + m + n := by omega
    rw [htotal] at hclauses
    have htrimmed := trimmed_spaces (P := fun s => Text.semicolons? s = some (2 + m + n))
      Text.semicolons?_before hclauses
    exact Text.semicolons?_enclosed rfl htrimmed rfl

/-- The header of a loop has no semicolon outside its string literals when all its clauses are
empty.  Otherwise it has two, and one more for each further declarator of the initial clause and of
the update.  So it has none or two exactly when neither of them declares more than one name. -/
theorem statement_loop_semicolons {init test update statements : Option Node} {span : Span}
    (h : (Node.forStatement init test update statements span).Avoids headerMarks)
    (ctx : Context) :
    ∃ header rest count, statement ctx (.forStatement init test update statements span) =
        .code ctx.depth ("for" ++ header ++ "\x7b") :: rest ∧
      Text.semicolons? header = some count ∧
      count = (if clause ctx init = "" ∧ expression? .free test = "" ∧ clause ctx update = "" then 0
        else 2 + (declared init - 1) + (declared update - 1)) ∧
      (count = 0 ∨ count = 2 ↔ declared init ≤ 1 ∧ declared update ≤ 1) := by
  have havoids {c : Option Node} (hc : ∀ n ∈ c, n ∈ init.toList ++ test.toList ++ update.toList) :
      ∀ n ∈ c, n.Avoids headerMarks :=
    fun n hn => h.children n (List.mem_append_left _ (hc n hn))
  have hinit := semicolons?_clause ctx (havoids (c := init) (by simp +contextual))
  have htest := textLaw_semicolons.expression? (havoids (c := test) (by simp +contextual)) .free
  have hupdate := semicolons?_clause ctx (havoids (c := update) (by simp +contextual))
  refine ⟨_, body ctx.nest statements ++ [.code ctx.depth "\x7d"], _, ?_,
    semicolons?_headerClauses hinit htest hupdate, rfl, ?_⟩
  · rw [statement, loopHeader_eq]
    rfl
  · split
    · next hempty =>
      -- an empty clause holds no semicolon, so it declares at most one name
      have hi := declared_of_clause_empty hinit hempty.1
      have hu := declared_of_clause_empty hupdate hempty.2.2
      simp [hi, hu]
    · omega

/-! ## A loop over two indices -/

/-- The loop `for (let i = a, j = b; i < j; i++) {}`. -/
def twoIndexLoop : Node :=
  let name (text : String) : Option Node := some (.identifier ⟨text, {}⟩)
  .forStatement
    (some (.variableDeclaration "let" [⟨name "i", name "a", {}⟩, ⟨name "j", name "b", {}⟩] {}))
    (some (.binaryExpression "<" (name "i") (name "j") {}))
    (some (.updateExpression "++" false (name "i") {}))
    (some (.blockStatement ⟨[], {}⟩)) {}

theorem avoids_twoIndexLoop : twoIndexLoop.Avoids headerMarks := Node.avoids_iff_all.2 rfl

/-- The header of a loop over two indices has three semicolons. -/
theorem statement_loop_semicolons_two_indices :
    twoIndexLoop.Avoids headerMarks ∧ ∃ header rest,
      statement {} twoIndexLoop = .code 0 ("for" ++ header ++ "\x7b") :: rest ∧
        Text.semicolons? header = some 3 := by
  obtain ⟨header, rest, count, hstatement, hcount, hvalue, -⟩ :=
    statement_loop_semicolons avoids_twoIndexLoop {}
  have hthree : count = 3 := hvalue
  exact ⟨avoids_twoIndexLoop, header, rest, hstatement, hthree ▸ hcount⟩

/-- A header of four clauses, which is neither the header without clauses nor one with three. -/
theorem statement_loop_four_clauses :
    twoIndexLoop.Avoids headerMarks ∧
      statement {} twoIndexLoop =
        [.code 0 "for i := a; j := b; i < j; i++ \x7b", .code 0 "\x7d"] ∧
      ∀ header rest, statement {} twoIndexLoop = .code 0 ("for" ++ header ++ "\x7b") :: rest →
        ¬ (Text.semicolons? header = some 0 ∨ Text.semicolons? header = some 2) := by
  have hstatement : statement {} twoIndexLoop =
      [.code 0 ("for" ++ " i := a; j := b; i < j; i++ " ++ "\x7b"), .code 0 "\x7d"] := rfl
  refine ⟨avoids_twoIndexLoop, hstatement, fun header rest h => ?_⟩
  rw [hstatement] at h
  simp only [List.cons.injEq, Line.code.injEq, true_and, String.append_left_inj,
    String.append_right_inj] at h
  obtain ⟨rfl, -⟩ := h
  have hthree : Text.semicolons? " i := a; j := b; i < j; i++ " = some 3 := rfl
  simp [hthree]

end Code

end Scaffold
