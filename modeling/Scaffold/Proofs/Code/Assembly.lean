import Scaffold.Proofs.Code.View
import Scaffold.Proofs.Number.Digits
import Scaffold.Proofs.Tree.Throughout

/-!
# How code is put together

Code is put together from few kinds of texts: the words of the tree, which stand
in it as they are, quoted texts, numbers and fixed parts.  They are appended to
each other, put in brackets and set on lines.  A property of texts that survives
these steps holds of all code, and to show that it does no expression has to be
looked at again.

`TextLaw marks P` says that `P` survives the steps that make a text, when the
words hold none of the characters in `marks`.  `LineLaw marks P Q` says that `Q`
survives the steps that set such texts on lines.

* `TextLaw.expression`, `TextLaw.declaration`: the law for expressions and for
  declarations.
* `LineLaw.statement`: the law for the lines of a statement.
-/

namespace Scaffold.Code

/-! ## Laws of texts -/

/-- A text that holds none of the given characters. -/
abbrev Lacks (marks : List Char) (s : String) : Prop := ∀ c ∈ marks, c ∉ s.toList

/-- A character that may stand in the fixed parts of an expression or declaration. -/
def isFixedChar (c : Char) : Bool := c.isAlphanum || " ,.:=!+-".toList.contains c

/-- A property of texts that the writer of expressions and declarations keeps. -/
structure TextLaw (marks : List Char) (P : String → Prop) : Prop where
  /-- The fixed parts hold no mark. -/
  unfixed : ∀ c ∈ marks, isFixedChar c = false
  /-- A text without marks. -/
  plain {s : String} : Lacks marks s → P s
  /-- A quoted text. -/
  quoted (s : String) : P (Text.quote s)
  /-- One text after another. -/
  append {s t : String} : P s → P t → P (s ++ t)
  /-- A text in parentheses. -/
  grouped {s : String} : P s → P (grouped s)
  /-- A text in square brackets. -/
  bracketed {s : String} : P s → P ("[" ++ s ++ "]")
  /-- A text in braces. -/
  braced {s : String} : P s → P ("\x7b" ++ s ++ "\x7d")
  /-- A text before a space. -/
  before {s : String} : P (s ++ " ") → P s

theorem lacks_segment {marks : List Char} {name : String} (h : Lacks marks name) (i : Nat) :
    Lacks marks (segment (Text.splitOn '_' name.toList) i) := by
  intro c hc hmem
  rw [segment, String.toList_ofList, List.getD_eq_getElem?_getD] at hmem
  cases hpart : (Text.splitOn '_' name.toList)[i]? with
  | none =>
    rw [hpart] at hmem
    cases hmem
  | some part =>
    rw [hpart] at hmem
    obtain ⟨-, hpiece⟩ := Text.of_mem_splitOn (List.mem_of_getElem? hpart)
    exact h c hc (hpiece.subset hmem)

theorem expressions_eq (cs : List (Option Node)) : expressions cs = cs.map (expression? .free) := by
  induction cs with
  | nil => rfl
  | cons c cs ih => rw [expressions, ih, List.map_cons]

/-- A property that a text before a space takes over from the text with the space holds of a text
without the spaces at its end. -/
theorem trimmed_spaces {P : String → Prop} (before : ∀ {s : String}, P (s ++ " ") → P s)
    {s : String} (h : P s) : P (String.ofList (Text.trimEnd (· = ' ') s.toList)) := by
  obtain ⟨cs, hcs⟩ : ∃ cs : List Char, s = String.ofList cs.reverse :=
    ⟨s.toList.reverse, by simp⟩
  subst hcs
  rw [Text.trimEnd, String.toList_ofList, List.reverse_reverse]
  induction cs with
  | nil => exact h
  | cons c cs ih =>
    by_cases hc : c = ' '
    · subst hc
      rw [List.dropWhile_cons_of_pos (by simp)]
      refine ih (before ?_)
      rw [List.reverse_cons, String.ofList_append] at h
      exact h
    · rw [List.dropWhile_cons_of_neg (by simpa using hc)]
      exact h

namespace TextLaw
variable {marks : List Char} {P : String → Prop} (law : TextLaw marks P)
include law

/-- A fixed part. -/
theorem fixed {s : String} (h : s.toList.all isFixedChar = true) : P s := by
  refine law.plain ?_
  intro c hmark hmem
  have hfixed := List.all_eq_true.1 h c hmem
  rw [law.unfixed c hmark] at hfixed
  cases hfixed

theorem empty : P "" := law.fixed rfl

/-- The text of a number. -/
theorem number {s : String} (h : ∀ c ∈ s.toList, IsNumberChar c) : P s := by
  refine law.fixed (List.all_eq_true.2 ?_)
  intro c hc
  rcases h c hc with halpha | hsign
  · rw [isFixedChar, halpha, Bool.true_or]
  · simp only [List.mem_cons, List.not_mem_nil, or_false] at hsign
    rcases hsign with rfl | rfl | rfl <;> rfl

theorem intercalate {sep : String} {parts : List String} (hsep : P sep) (h : ∀ p ∈ parts, P p) :
    P (sep.intercalate parts) := by
  induction parts with
  | nil => exact law.empty
  | cons p parts ih =>
    rw [List.forall_mem_cons] at h
    cases parts with
    | nil => simpa using h.1
    | cons q parts =>
      rw [String.intercalate_cons_cons]
      exact law.append (law.append h.1 hsep) (ih h.2)

theorem joinNonEmpty {parts : List String} (h : ∀ p ∈ parts, P p) :
    P (Text.joinNonEmpty parts) := by
  refine law.intercalate (law.fixed rfl) ?_
  intro p hp
  exact h p (List.mem_filter.1 hp).1

/-- The name and type guessed from a name. -/
theorem infer {name : String} (h : Lacks marks name) :
    P (infer name).name ∧ P (infer name).type := by
  have hsegment (i : Nat) := law.plain (lacks_segment h i)
  rw [Scaffold.infer]
  split
  · dsimp only
    split
    · exact ⟨hsegment 0, law.append (law.bracketed (hsegment 2)) (hsegment 3)⟩
    · exact ⟨hsegment 0, hsegment 1⟩
  · split
    · exact ⟨law.plain h, law.fixed (s := "int") rfl⟩
    · split
      · exact ⟨law.plain h, law.empty⟩
      · exact ⟨law.plain h, law.fixed (s := "string") rfl⟩

theorem operation {operator left right : String} (ho : Lacks marks operator) (hl : P left)
    (hr : P right) (place : Place) : P (operation place operator left right) := by
  have hoperator : P (goOperator operator) := by
    rw [goOperator]
    split
    · exact law.fixed rfl
    · split
      · exact law.fixed rfl
      · exact law.plain ho
  have hspace : P " " := law.fixed rfl
  have htext : P (left ++ " " ++ goOperator operator ++ " " ++ right) :=
    law.append (law.append (law.append (law.append hl hspace) hoperator) hspace) hr
  cases place with
  | free => exact htext
  | operand => exact law.grouped htext

/-! ## Expressions -/

theorem literalText {value : Value} {raw : String} {span : Span}
    (h : ∀ word ∈ (Node.literal value raw span).words, Lacks marks word) :
    P (literalText value raw) := by
  cases value with
  | integer n =>
    rw [Code.literalText]
    split
    · exact law.number fun c => isNumberChar_toString
    · exact law.plain (h raw (List.mem_singleton_self _))
  | number f x =>
    rw [Code.literalText]
    split
    · exact law.number fun c => Binary.isNumberChar_codeText
    · exact law.plain (h raw (List.mem_singleton_self _))
  | _ => exact law.quoted _

/-- The text of an expression, by induction over the tree. -/
theorem expression {n : Node} (h : n.Avoids marks) (place : Place) : P (expression place n) := by
  induction h generalizing place with
  | @intro n hwords _ ih =>
    have hword {word : String} (hmem : word ∈ n.words) : P word := law.plain (hwords word hmem)
    have hchild {c : Option Node} (hc : ∀ m ∈ c, m ∈ n.children) (place : Place) :
        P (expression? place c) := by
      cases c with
      | none => exact law.empty
      | some m => exact ih m (hc m rfl) place
    have hlist {cs : List (Option Node)} (hcs : ∀ m, some m ∈ cs → m ∈ n.children) :
        P (", ".intercalate (expressions cs)) := by
      refine law.intercalate (law.fixed rfl) ?_
      rw [expressions_eq, List.forall_mem_map]
      intro c hc
      exact hchild (fun m hm => hcs m (by rwa [← hm])) .free
    cases n with
    | literal value raw span => exact law.literalText hwords
    | identifier i => exact hword (List.mem_singleton_self _)
    | binaryExpression operator left right span
    | logicalExpression operator left right span =>
      have hleft := hchild (c := left) (by simp +contextual [Node.children]) .operand
      have hright := hchild (c := right) (by simp +contextual [Node.children]) .operand
      exact law.operation (hwords operator (List.mem_singleton_self _)) hleft hright place
    | unaryExpression operator isPrefix argument span =>
      have hargument := hchild (c := argument) (by simp [Node.children]) .free
      rw [Code.expression]
      split
      · exact law.empty
      · refine law.append (hword (List.mem_singleton_self _)) ?_
        split
        · exact law.grouped hargument
        · exact hargument
    | memberExpression object property computed span =>
      have hobject := hchild (c := object) (by simp +contextual [Node.children]) .free
      have hproperty := hchild (c := property) (by simp +contextual [Node.children]) .free
      rw [Code.expression]
      split
      · have hindex := law.append hobject (law.bracketed hproperty)
        rwa [← String.append_assoc, ← String.append_assoc] at hindex
      · exact law.append (law.append hobject (law.fixed rfl)) hproperty
    | callExpression callee arguments span =>
      have hcallee := hchild (c := callee) (by simp +contextual [Node.children]) .free
      exact law.append hcallee (law.grouped (hlist (by simp +contextual [Node.children])))
    | arrayExpression elements span => exact law.braced (hlist (by simp [Node.children]))
    | updateExpression operator isPrefix argument span =>
      have hoperator : P operator := hword (List.mem_singleton_self _)
      have hargument := hchild (c := argument) (by simp [Node.children]) .free
      rw [Code.expression]
      split
      · exact law.append hoperator hargument
      · exact law.append hargument hoperator
    | assignmentExpression operator left right span =>
      have hleft := hchild (c := left) (by simp +contextual [Node.children]) .free
      have hright := hchild (c := right) (by simp +contextual [Node.children]) .free
      have hsign : P (if operator = "" then "=" else operator) := by
        split
        · exact law.fixed rfl
        · exact hword (List.mem_singleton_self _)
      have hspace : P " " := law.fixed rfl
      exact law.append (law.append (law.append (law.append hleft hspace) hsign) hspace) hright
    | _ => exact law.empty

theorem expression? {c : Option Node} (h : ∀ n ∈ c, n.Avoids marks) (place : Place) :
    P (expression? place c) := by
  cases c with
  | none => exact law.empty
  | some n => exact law.expression (h n rfl) place

theorem expressionList {cs : List (Option Node)} (h : ∀ n, some n ∈ cs → n.Avoids marks) :
    P (expressionList cs) := by
  refine law.intercalate (law.fixed rfl) ?_
  rw [expressions_eq, List.forall_mem_map]
  intro c hc
  exact law.expression? (fun n hn => h n (by rwa [← hn])) .free

theorem expressionStatement {e : Option Node} (h : ∀ n ∈ e, n.Avoids marks) :
    P (expressionStatement e) := by
  rcases e with _ | e
  · exact law.empty
  cases e with
  | callExpression callee arguments span =>
    have hcall := (h _ rfl).children
    have hcallee : ∀ n ∈ callee, n.Avoids marks :=
      fun n hn => hcall n (by simp_all [Node.children])
    have harguments : ∀ n, some n ∈ arguments → n.Avoids marks :=
      fun n hn => hcall n (by simp_all [Node.children])
    rw [expressionStatement_call]
    refine law.append ?_ (law.grouped (law.expressionList harguments))
    split
    · exact law.fixed rfl
    · exact law.expression? hcallee .free
  | _ => exact law.expression? h .free

/-! ## Declarations -/

theorem compositeType {type : String} (h : P type) : P (compositeType type) := by
  rw [Code.compositeType]
  split
  · exact h
  · exact law.append (law.bracketed law.empty) h

theorem keyword (b : Binding) : P b.keyword := by
  cases b <;> exact law.fixed rfl

theorem declarator (ctx : Context) {id init : Option Node} {span : Span}
    (hid : ∀ n ∈ id, n.Avoids marks) (hinit : ∀ n ∈ init, n.Avoids marks) :
    P (declarator ctx ⟨id, init, span⟩) := by
  rcases id with _ | id
  · exact law.empty
  cases id with
  | identifier target =>
    have hlacks : Lacks marks target.name := (hid _ rfl).here _ (List.mem_singleton_self _)
    have hname : P target.name := law.plain hlacks
    have hsign : P " := " := law.fixed rfl
    obtain ⟨hguessed, htype⟩ := law.infer hlacks
    rw [declarator_view]
    simp only [view?, view, Option.map_some, Option.bind_some, name?]
    cases init with
    | none =>
      simp only [Option.map_none]
      exact law.joinNonEmpty (by simp [law.keyword, hguessed, htype])
    | some init =>
      have htext : P ((view init).expression .free) := law.expression (hinit init rfl) .free
      simp only [Option.map_some]
      split
      · exact law.append (law.append (law.append hguessed hsign) (law.compositeType htype)) htext
      · split
        · exact law.append (law.append hname hsign) htext
        · have hmodule := law.append (law.fixed (s := "import ") rfl) hname
          exact law.append (law.append hmodule (law.fixed rfl)) (law.quoted _)
        · have hequals : P "=" := law.fixed rfl
          exact law.joinNonEmpty (by simp [law.keyword, hguessed, htype, hequals, htext])
  | _ => exact law.empty

/-- The texts of a declaration. -/
theorem declaration (ctx : Context) (keyword : String) {ds : List (Declarator Node)}
    {span : Span} (h : (Node.variableDeclaration keyword ds span).Avoids marks) :
    ∀ text ∈ declaration ctx keyword ds, P text := by
  intro text htext
  rw [Code.declaration, List.mem_filter, List.mem_map] at htext
  obtain ⟨⟨⟨id, init, span'⟩, hd, rfl⟩, -⟩ := htext
  have hdeclarator : (Node.variableDeclarator ⟨id, init, span'⟩).Avoids marks :=
    h.children _ (List.mem_map_of_mem hd)
  refine law.declarator _ (fun n hn => ?_) (fun n hn => ?_)
  · exact hdeclarator.children n (by simp_all [Node.children])
  · exact hdeclarator.children n (by simp_all [Node.children])

/-! ## Headers -/

theorem clause (hsemicolon : P "; ") (ctx : Context) {c : Option Node}
    (h : ∀ n ∈ c, n.Avoids marks) : P (clause ctx c) := by
  rcases c with _ | n
  · exact law.empty
  cases n with
  | variableDeclaration keyword ds span =>
    exact law.intercalate hsemicolon (law.declaration _ keyword (h _ rfl))
  | _ => exact law.expression? h .free

/-- A loop header up to its brace. -/
theorem loopHeader (hsemicolon : P "; ") {init test update : String} (hi : P init) (ht : P test)
    (hu : P update) : ∃ text, P text ∧ loopHeader init test update = text ++ "\x7b" := by
  have hfor : P "for " := law.fixed rfl
  rw [Code.loopHeader]
  split
  · exact ⟨"for ", hfor, rfl⟩
  · have hclauses := trimmed_spaces law.before
      (law.append (law.append (law.append (law.append hi hsemicolon) ht) hsemicolon) hu)
    refine ⟨_, law.append (law.append hfor hclauses) (law.fixed (s := " ") rfl), ?_⟩
    rw [show " \x7b" = " " ++ "\x7b" by rfl, ← String.append_assoc]

theorem parameter? {c : Option Node} (h : ∀ n ∈ c, n.Avoids marks) :
    ∀ text ∈ parameter? c, P text := by
  rcases c with _ | n
  · nofun
  cases n with
  | identifier i =>
    intro text htext
    cases htext
    obtain ⟨hname, htype⟩ := law.infer ((h _ rfl).here _ (List.mem_singleton_self _))
    exact law.joinNonEmpty (by simp [hname, htype])
  | _ => nofun

/-- A function header up to its brace. -/
theorem functionHeader {id : Option Identifier} {params : List (Option Node)}
    (hid : ∀ i ∈ id, (Node.identifier i).Avoids marks)
    (hparams : ∀ n, some n ∈ params → n.Avoids marks) :
    ∃ text, P text ∧ functionHeader id params = text ++ "\x7b" := by
  have hlist : P (", ".intercalate (params.filterMap Code.parameter?)) := by
    refine law.intercalate (law.fixed rfl) ?_
    intro text htext
    obtain ⟨c, hc, hparameter⟩ := List.mem_filterMap.1 htext
    exact law.parameter? (fun n hn => hparams n (by rwa [← hn])) text hparameter
  have hsignature {name : String} (hname : Lacks marks name) : P ("func "
      ++ (Scaffold.infer name).name ++ Code.grouped (", ".intercalate
        (params.filterMap Code.parameter?)) ++ " " ++ (Scaffold.infer name).type) := by
    obtain ⟨hguessed, htype⟩ := law.infer hname
    have hfront := law.append (law.fixed (s := "func ") rfl) hguessed
    exact law.append (law.append (law.append hfront (law.grouped hlist)) (law.fixed rfl)) htype
  cases id with
  | none => exact ⟨_, hsignature fun _ _ => List.not_mem_nil, rfl⟩
  | some i => exact ⟨_, hsignature ((hid i rfl).here _ (List.mem_singleton_self _)), rfl⟩

end TextLaw

/-! ## Laws of lines -/

/-- A property of lines that the writer of statements keeps, over a property of their texts. -/
structure LineLaw (marks : List Char) (P : String → Prop) (Q : List Line → Prop) : Prop
    extends TextLaw marks P where
  /-- What separates the clauses of a loop header. -/
  semicolon : P "; "
  /-- The comment in every function. -/
  marker : P reviewMarker
  /-- No line. -/
  nil : Q []
  /-- A line with a text. -/
  line {depth : Nat} {text : String} : text ≠ "" → P text → Q [.code depth text]
  /-- Lines after a blank one. -/
  blank {ls : List Line} : Q ls → Q (.blank :: ls)
  /-- Lines after other lines. -/
  append_lines {ls ms : List Line} : Q ls → Q ms → Q (ls ++ ms)
  /-- Lines between a header and a closing brace. -/
  enclosed {depth : Nat} {header : String} {ls : List Line} : P header → Q ls →
    Q (.code depth (header ++ "\x7b") :: ls ++ [.code depth "\x7d"])
  /-- The lines of two branches. -/
  branches {depth : Nat} {header : String} {ls ms : List Line} : P header → Q ls → Q ms →
    Q (.code depth (header ++ "\x7b") :: ls ++ .code depth "\x7d else \x7b" :: ms
      ++ [.code depth "\x7d"])

theorem append_ne_empty {s t : String} (h : s ≠ "") : s ++ t ≠ "" := by
  simp [h]

namespace LineLaw
variable {marks : List Char} {P : String → Prop} {Q : List Line → Prop} (law : LineLaw marks P Q)
include law

/-- Texts on lines of their own. -/
theorem lines {depth : Nat} {texts : List String} (h : ∀ text ∈ texts, text ≠ "" ∧ P text) :
    Q (texts.map (.code depth)) := by
  induction texts with
  | nil => exact law.nil
  | cons text texts ih =>
    rw [List.forall_mem_cons] at h
    exact law.append_lines (law.line h.1.1 h.1.2) (ih h.2)

/-- The lines of statements, one after the other. -/
theorem block {ctx : Context} {ss : List (Option Node)}
    (h : ∀ n, some n ∈ ss → Q (statement ctx n)) : Q (block ctx ss) := by
  induction ss with
  | nil => exact law.nil
  | cons s ss ih =>
    have hrest := ih fun n hn => h n (List.mem_cons_of_mem _ hn)
    cases s with
    | none => exact hrest
    | some n => exact law.append_lines (h n List.mem_cons_self) hrest

/-- The lines of a statement, and of a body that it is, by induction over the tree. -/
theorem statement {n : Node} (h : n.Avoids marks) :
    (∀ ctx, Q (statement ctx n)) ∧ ∀ ctx, Q (body ctx (some n)) := by
  induction h with
  | @intro n hwords hchildren ih =>
    have hblock {ss : List (Option Node)} (hss : ∀ m, some m ∈ ss → m ∈ n.children)
        (ctx : Context) : Q (Code.block ctx ss) :=
      law.block fun m hm => (ih m (hss m hm)).1 ctx
    have hbody {c : Option Node} (hc : ∀ m ∈ c, m ∈ n.children) (ctx : Context) :
        Q (body ctx c) := by
      cases c with
      | none => exact law.nil
      | some m => exact (ih m (hc m rfl)).2 ctx
    have havoids {c : Option Node} (hc : ∀ m ∈ c, m ∈ n.children) : ∀ m ∈ c, m.Avoids marks :=
      fun m hm => hchildren m (hc m hm)
    have hspace : P " " := law.fixed rfl
    have hstatement (ctx : Context) : Q (Code.statement ctx n) := by
      cases n with
      | expressionStatement e span =>
        have htext := law.expressionStatement (havoids (c := e) (by simp [Node.children]))
        rw [Code.statement]
        split
        · exact law.nil
        · next hne => exact law.line hne htext
      | returnStatement argument span =>
        have hreturn : P "return" := law.fixed rfl
        cases argument with
        | none => exact law.line (by simp) hreturn
        | some m =>
          have hargument := law.expression (havoids (by simp [Node.children]) m rfl) .free
          refine law.line (append_ne_empty (by simp)) (law.append ?_ hargument)
          exact law.fixed rfl
      | blockStatement b => exact law.enclosed law.empty (hblock (by simp [Node.children]) _)
      | ifStatement test consequent alternate span =>
        have htest := law.expression? (havoids (c := test)
          (by simp +contextual [Node.children])) .free
        have hconsequent := hbody (c := consequent) (by simp +contextual [Node.children])
        have halternate := hbody (c := alternate) (by simp +contextual [Node.children])
        have hheader := law.append (law.append (law.fixed (s := "if ") rfl) htest) hspace
        rw [Code.statement, show " \x7b" = " " ++ "\x7b" by rfl, ← String.append_assoc]
        exact law.branches hheader (hconsequent ctx.nest) (halternate ctx.nest)
      | forStatement init test update statements span =>
        have hinit := law.clause law.semicolon ctx (havoids (c := init)
          (by simp +contextual [Node.children]))
        have htest := law.expression? (havoids (c := test)
          (by simp +contextual [Node.children])) .free
        have hupdate := law.clause law.semicolon ctx (havoids (c := update)
          (by simp +contextual [Node.children]))
        obtain ⟨header, hheader, heq⟩ := law.loopHeader law.semicolon hinit htest hupdate
        rw [Code.statement, heq]
        exact law.enclosed hheader (hbody (by simp +contextual [Node.children]) _)
      | whileStatement test statements span =>
        have htest := law.expression? (havoids (c := test)
          (by simp +contextual [Node.children])) .free
        have hheader := law.append (law.append (law.fixed (s := "for ") rfl) htest) hspace
        rw [Code.statement, show " \x7b" = " " ++ "\x7b" by rfl, ← String.append_assoc]
        exact law.enclosed hheader (hbody (by simp +contextual [Node.children]) ctx.nest)
      | breakStatement span => exact law.line (by simp) (law.fixed rfl)
      | continueStatement span => exact law.line (by simp) (law.fixed rfl)
      | variableDeclaration keyword ds span =>
        have hself : (Node.variableDeclaration keyword ds span).Avoids marks :=
          .intro hwords hchildren
        have htexts := law.declaration ctx keyword hself
        refine law.lines ?_
        intro text htext
        refine ⟨?_, htexts text htext⟩
        rw [Code.declaration, List.mem_filter] at htext
        simpa using htext.2
      | functionDeclaration id params statements span =>
        have hid : ∀ i ∈ id, (Node.identifier i).Avoids marks :=
          fun i hi => hchildren _ (by simp_all [Node.children])
        have hparams : ∀ m, some m ∈ params → m.Avoids marks :=
          fun m hm => hchildren m (by simp_all [Node.children])
        obtain ⟨header, hheader, heq⟩ := law.functionHeader hid hparams
        have hlines : Q (functionBody ctx.nest statements) := by
          cases statements with
          | none => exact law.nil
          | some b => exact hbody (c := some (.blockStatement b)) (by simp [Node.children]) _
        have hmarker : Q [.code (ctx.depth + 1) reviewMarker] :=
          law.line (by simp [reviewMarker]) law.marker
        rw [Code.statement, heq]
        exact law.blank (law.enclosed hheader (law.append_lines hmarker hlines))
      | _ => exact law.nil
    refine ⟨hstatement, fun ctx => ?_⟩
    cases n with
    | blockStatement b => exact hblock (by simp [Node.children]) ctx
    | _ => exact hstatement ctx

end LineLaw

end Scaffold.Code
