import Mathlib.Logic.Relation
import Scaffold.Command.Document
import Scaffold.Proofs.Tree.Document

/-!
# The first fault of a document

A node object is decoded in stages, after its fields and its type are accepted.
The stages of a kind follow its slots (`Kind.stages`).  A child is decoded, the
elements of a list are decoded one by one, and where a slot asks for a kind, the
kind is checked after the child, or after all elements of the list.

Decoding a node raises the fault of the first stage that has one (`fault?_nodeOf`).
So a fault of a child goes up to its parent as it is when nothing in front of the
child has a fault, whatever comes after it, and from there on to the root.  The
path of the document is set in front of what is said about the fault, once.

* `Node.first_fault`: the first fault wins at every node and at every depth, and
  the outcomes of parsing a document at two paths differ in the path only.
-/

namespace Scaffold

namespace Decode

/-! ## Faults of computations -/

/-- The fault of a computation, if it has one. -/
def fault? {α : Type} : Except Fault α → Option Fault
  | .error fault => some fault
  | .ok _ => none

theorem fault?_eq_some {α : Type} {x : Except Fault α} {fault : Fault} :
    fault? x = some fault ↔ x = .error fault := by
  cases x <;> simp [fault?]

/-- A computation after which any fault is the same. -/
theorem fault?_bind {α β : Type} {x : Except Fault α} {f : α → Except Fault β}
    {rest : Option Fault} (h : ∀ a, fault? (f a) = rest) :
    fault? (x >>= f) = (fault? x).or rest := by
  cases x with
  | error fault => rfl
  | ok a => exact h a

/-- A computation after which nothing can fail. -/
theorem fault?_last {α β : Type} {x : Except Fault α} {f : α → β} :
    fault? (x >>= fun a => .ok (f a)) = (fault? x).or none := by
  cases x <;> rfl

/-- The fault of a check on what a computation returns, none when it returns nothing. -/
def checkFault? {α : Type} (x : Except Fault α) (check : α → Option Fault) : Option Fault :=
  match x with
  | .error _ => none
  | .ok a => check a

theorem fault?_bind_check {α β γ : Type} {x : Except Fault α} {f : α → Except Fault β}
    {g : β → Except Fault γ} {check : α → Option Fault} {rest : Option Fault}
    (hf : ∀ a, fault? (f a) = check a) (hg : ∀ b, fault? (g b) = rest) :
    fault? (x >>= fun a => f a >>= g) = (fault? x).or ((checkFault? x check).or rest) := by
  cases x with
  | error fault => rfl
  | ok a => exact (fault?_bind hg).trans (by rw [hf]; rfl)

/-! ## Stages -/

/-- A stage in decoding a node object. -/
inductive Stage where
  /-- A child is decoded. -/
  | child (j : Json)
  /-- A list of children has to be an array or a null.  The table of fields asks for that already,
  except for the body of a program or block. -/
  | array (owner : Kind) (j : Json)
  /-- A child that is present has to be of a kind. -/
  | only (kind : Kind) (j : Json)
  /-- A literal value is decoded. -/
  | value (j : Json)

/-- The fault of a child that is not of the kind that its slot asks for: the name of a function, its
body, or a declarator. -/
def mismatch (kind : Kind) (found : String) : Fault :=
  match kind with
  | .identifier => .functionName found
  | .blockStatement => .functionBody found
  | _ => .declaration found

/-- The fault of a decoded child that has to be of a kind. -/
def kindFault? (kind : Kind) (child : Option Node) : Option Fault :=
  child.bind fun n => if n.kind = .inl kind then none else some (mismatch kind n.kindName)

/-- The fault of a stage, if it has one.  What a child is can only be checked when it is decoded. -/
def Stage.fault? : Stage → Option Fault
  | .child j => Decode.fault? (ofJson j)
  | .array owner j => match j with
    | .null | .array _ => none
    | _ => some (.body owner)
  | .only kind j => checkFault? (ofJson j) (kindFault? kind)
  | .value j => match Value.ofJson? j with
    | some _ => none
    | none => some .literal

/-- The elements of a JSON value, none when it is not an array. -/
def elements : Json → List Json
  | .array js => js
  | _ => []

/-- The last member of an object for a field. -/
def lastMember? (f : Field) (members : List (Json.Key × Json)) : Option (Json.Key × Json) :=
  (members.filter fun m => Field.ofKey? m.1.text = some f).getLast?

/-- The value of a field: that of its last member, a null when it has none. -/
def fieldValue (f : Field) (members : List (Json.Key × Json)) : Json :=
  match lastMember? f members with
  | some m => m.2
  | none => .null

end Decode

open Decode

/-- The stages for a slot of a node with a value in it. -/
def Slot.stages (owner : Kind) (j : Json) : Slot → List Stage
  | .child => [.child j]
  | .children => .array owner j :: (elements j).map .child
  | .only kind => [.child j, .only kind j]
  | .listOf kind => (elements j).map .child ++ (elements j).map (.only kind)
  | .value => [.value j]

/-- The stages in which a node object of a kind is decoded. -/
def Kind.stages (kind : Kind) (members : List (Json.Key × Json)) : List Stage :=
  kind.slots.flatMap fun slot => slot.2.stages kind (fieldValue slot.1 members)

theorem Kind.name_ne_empty (kind : Kind) : kind.name ≠ "" := by
  cases kind <;> simp [name]

namespace Decode

/-- An object whose fields have the shapes of the table and whose type is the name of a kind. -/
structure IsOfKind (members : List (Json.Key × Json)) (kind : Kind) : Prop where
  fields : ∀ f j, Holds members f j → f.shape.Describes j
  type : text .type (entries members) = kind.name

/-! ## Values of fields -/

theorem last?_eq (f : Field) (members : List (Json.Key × Json)) :
    last? f (entries members) = (lastMember? f members).map fun m => reading m.2 := by
  induction members with
  | nil => rfl
  | cons m members ih =>
    obtain ⟨key, j⟩ := m
    rw [entries]
    cases hkey : Field.ofKey? key.text with
    | none =>
      rw [lastMember?, List.filter_cons_of_neg (by simp [hkey])]
      exact ih
    | some g =>
      rw [last?, ih, lastMember?, lastMember?]
      by_cases hg : g = f
      · rw [List.filter_cons_of_pos (by simp [hkey, hg]), List.getLast?_cons]
        cases (members.filter fun m => Field.ofKey? m.1.text = some f).getLast? <;>
          simp [hg, reading]
      · rw [List.filter_cons_of_neg (by simp [hkey, hg])]
        cases (members.filter fun m => Field.ofKey? m.1.text = some f).getLast? <;> simp [hg]

theorem child_entries (f : Field) (members : List (Json.Key × Json)) :
    child f (entries members) = ofJson (fieldValue f members) := by
  rw [child, last?_eq, fieldValue]
  cases lastMember? f members <;> rfl

theorem children_entries (f : Field) (members : List (Json.Key × Json)) :
    children f (entries members) = ofElements (elements (fieldValue f members)) := by
  rw [children, last?_eq, fieldValue]
  cases lastMember? f members with
  | none => rfl
  | some m =>
    obtain ⟨key, j⟩ := m
    cases j <;> rfl

/-- The table of fields admits a list only. -/
theorem fault?_array {members : List (Json.Key × Json)}
    (hfields : ∀ f j, Holds members f j → f.shape.Describes j) {f : Field}
    (hf : f.shape = .list) (owner : Kind) :
    (Stage.array owner (fieldValue f members)).fault? = none := by
  rw [fieldValue]
  cases hlast : lastMember? f members with
  | none => rfl
  | some m =>
    obtain ⟨key, j⟩ := m
    obtain ⟨hmem, hkey⟩ := List.mem_filter.1 (List.mem_of_getLast? hlast)
    have hshape := hfields f j ⟨key, hmem, by simpa using hkey⟩
    rw [hf] at hshape
    cases hshape <;> rfl

/-! ## Faults of slots -/

theorem findSome?_cons_or {α β : Type} (f : α → Option β) (a : α) (as : List α) :
    (a :: as).findSome? f = (f a).or (as.findSome? f) := by
  rw [List.findSome?_cons]
  cases f a <;> rfl

theorem fault?_ofElements (js : List Json) :
    fault? (ofElements js) = (js.map Stage.child).findSome? Stage.fault? := by
  induction js with
  | nil => rfl
  | cons j js ih =>
    rw [ofElements, fault?_bind fun _ => fault?_last, Option.or_none, ih, List.map_cons,
      findSome?_cons_or]
    rfl

theorem fault?_functionName (o : Option Node) :
    fault? (functionName o) = kindFault? .identifier o := by
  rcases o with _ | n
  · rfl
  · cases n <;> rfl

theorem fault?_functionBody (o : Option Node) :
    fault? (functionBody o) = kindFault? .blockStatement o := by
  rcases o with _ | n
  · rfl
  · cases n <;> rfl

theorem fault?_declarators (ns : List (Option Node)) :
    fault? (declarators ns) = ns.findSome? (kindFault? .variableDeclarator) := by
  induction ns with
  | nil => rfl
  | cons o ns ih =>
    rcases o with _ | n
    · exact ih
    cases n with
    | variableDeclarator d =>
      have hrest := @fault?_last _ _ (declarators ns) (d :: ·)
      rw [Option.or_none] at hrest
      exact hrest.trans ih
    | _ => rfl

/-- The fault of the stages for a slot. -/
def slotFault? (owner : Kind) (members : List (Json.Key × Json)) (f : Field) (slot : Slot) :
    Option Fault :=
  (slot.stages owner (fieldValue f members)).findSome? Stage.fault?

theorem findSome?_stages (kind : Kind) (members : List (Json.Key × Json)) :
    (kind.stages members).findSome? Stage.fault?
      = kind.slots.foldr (fun slot rest => (slotFault? kind members slot.1 slot.2).or rest)
          none := by
  rw [Kind.stages]
  induction kind.slots with
  | nil => rfl
  | cons slot slots ih => rw [List.flatMap_cons, List.findSome?_append, ih, List.foldr_cons]; rfl

/-- The kinds of decoded children, checked one by one. -/
theorem findSome?_only {kind : Kind} {js : List Json} {ns : List (Option Node)}
    (h : List.Forall₂ (fun j n => ofJson j = .ok n) js ns) :
    ns.findSome? (kindFault? kind) = (js.map (Stage.only kind)).findSome? Stage.fault? := by
  induction h with
  | nil => rfl
  | cons hn _ ih =>
    rw [findSome?_cons_or, List.map_cons, findSome?_cons_or, ih, Stage.fault?, hn, checkFault?]

/-- The kinds of declarators are checked after all of them are decoded. -/
theorem fault?_declarations {owner : Kind} {members : List (Json.Key × Json)} {α : Type}
    {g : List (Declarator Node) → Except Fault α} (hg : ∀ ds, fault? (g ds) = none) :
    fault? (children .declarations (entries members) >>= fun ns => declarators ns >>= g)
      = (slotFault? owner members .declarations (.listOf .variableDeclarator)).or none := by
  rw [fault?_bind_check fault?_declarators hg, children_entries, slotFault?, Slot.stages,
    List.findSome?_append, fault?_ofElements, Option.or_assoc]
  cases hjs : ofElements (elements (fieldValue .declarations members)) with
  | error fault =>
    rw [← fault?_ofElements, hjs]
    rfl
  | ok ns => rw [checkFault?, findSome?_only (ofElements_eq_ok.1 hjs)]

theorem fault?_statements (kind : Kind) (members : List (Json.Key × Json)) :
    fault? (statements kind (entries members)) = slotFault? kind members .body .children := by
  rw [statements, last?_eq, slotFault?, fieldValue]
  cases lastMember? .body members with
  | none => rfl
  | some m =>
    obtain ⟨key, j⟩ := m
    cases j with
    | array js => exact fault?_ofElements js
    | _ => rfl

theorem fault?_literal (owner : Kind) (members : List (Json.Key × Json)) :
    fault? (literal (entries members)) = slotFault? owner members .value .value := by
  rw [literal, last?_eq, slotFault?, fieldValue, Slot.stages, findSome?_cons_or, List.findSome?_nil,
    Option.or_none]
  cases lastMember? .value members with
  | none => rfl
  | some m =>
    simp only [Option.map_some, reading, Stage.fault?]
    cases Value.ofJson? m.2 <;> rfl

theorem fault?_child (owner : Kind) (members : List (Json.Key × Json)) (f : Field) :
    fault? (child f (entries members)) = slotFault? owner members f .child := by
  rw [child_entries, slotFault?, Slot.stages, findSome?_cons_or, List.findSome?_nil, Option.or_none]
  rfl

theorem fault?_only {owner kind : Kind} {members : List (Json.Key × Json)} {f : Field}
    {α β : Type} {check : Option Node → Except Fault α} {g : α → Except Fault β}
    {rest : Option Fault} (hcheck : ∀ o, fault? (check o) = kindFault? kind o)
    (hg : ∀ a, fault? (g a) = rest) :
    fault? (child f (entries members) >>= fun o => check o >>= g)
      = (slotFault? owner members f (.only kind)).or rest := by
  rw [fault?_bind_check hcheck hg, child_entries, slotFault?, Slot.stages, findSome?_cons_or,
    findSome?_cons_or, List.findSome?_nil, Option.or_none, Option.or_assoc]
  rfl

theorem fault?_children {members : List (Json.Key × Json)}
    (hfields : ∀ f j, Holds members f j → f.shape.Describes j) {f : Field}
    (hf : f.shape = .list) (owner : Kind) :
    fault? (children f (entries members)) = slotFault? owner members f .children := by
  rw [children_entries, slotFault?, Slot.stages, findSome?_cons_or, fault?_array hfields hf,
    fault?_ofElements, Option.none_or]

/-- Decoding a node raises the fault of the first stage that has one. -/
theorem fault?_nodeOf {members : List (Json.Key × Json)}
    (hfields : ∀ f j, Holds members f j → f.shape.Describes j) (kind : Kind) :
    fault? (nodeOf kind (entries members)) = (kind.stages members).findSome? Stage.fault? := by
  have hone (f : Field) := fault?_child kind members f
  have hmany {f : Field} (hf : f.shape = .list) := fault?_children hfields hf kind
  rw [findSome?_stages]
  cases kind with
  | breakStatement | continueStatement | identifier => rfl
  | program | blockStatement =>
    exact fault?_last.trans (by rw [fault?_statements]; rfl)
  | literal => exact fault?_last.trans (by rw [fault?_literal .literal]; rfl)
  | variableDeclaration =>
    exact (fault?_declarations fun _ => rfl).trans rfl
  | functionDeclaration =>
    have hstages : fault? (nodeOf .functionDeclaration (entries members)) =
        (fault? (children .params (entries members))).or
          ((slotFault? .functionDeclaration members .id (.only .identifier)).or
            ((slotFault? .functionDeclaration members .body (.only .blockStatement)).or none)) :=
      fault?_bind fun _ => fault?_only fault?_functionName fun _ =>
        fault?_only fault?_functionBody fun _ => rfl
    rw [hstages, hmany rfl]
    rfl
  | callExpression =>
    have harguments := hmany (f := .arguments) rfl
    exact (fault?_bind fun _ => fault?_last).trans (by rw [hone, harguments]; rfl)
  | arrayExpression =>
    have helements := hmany (f := .elements) rfl
    exact fault?_last.trans (by rw [helements]; rfl)
  | expressionStatement | returnStatement | unaryExpression | updateExpression =>
    exact fault?_last.trans (by rw [hone]; rfl)
  | whileStatement | variableDeclarator | binaryExpression | logicalExpression | memberExpression
  | assignmentExpression =>
    exact (fault?_bind fun _ => fault?_last).trans (by rw [hone, hone]; rfl)
  | ifStatement =>
    exact (fault?_bind fun _ => fault?_bind fun _ => fault?_last).trans
      (by rw [hone, hone, hone]; rfl)
  | forStatement =>
    exact (fault?_bind fun _ => fault?_bind fun _ => fault?_bind fun _ => fault?_last).trans
      (by rw [hone, hone, hone, hone]; rfl)

/-! ## Faults of nodes -/

theorem isOfKind_iff {members : List (Json.Key × Json)} {kind : Kind} :
    IsOfKind members kind ↔
      accepts (entries members) = true ∧ text .type (entries members) = kind.name := by
  have haccepts : accepts (entries members) = true
      ↔ ∀ f j, Holds members f j → f.shape.Describes j := by
    simp only [accepts_entries, Shape.accepts_iff]
  rw [haccepts]
  exact ⟨fun h => ⟨h.fields, h.type⟩, fun h => ⟨h.1, h.2⟩⟩

theorem ofJson_isOfKind {members : List (Json.Key × Json)} {kind : Kind}
    (h : IsOfKind members kind) :
    ofJson (.object members) = (nodeOf kind (entries members)).map some := by
  obtain ⟨haccepts, htype⟩ := isOfKind_iff.1 h
  simp [ofJson, node, haccepts, htype, Kind.name_ne_empty, Kind.ofName?_name]

/-- Decoding a node object fails with the fault of the first stage that has one, and only so. -/
theorem ofJson_eq_error {members : List (Json.Key × Json)} {kind : Kind}
    (h : IsOfKind members kind) (fault : Fault) :
    ofJson (.object members) = .error fault ↔
      ∃ before stage after, kind.stages members = before ++ stage :: after ∧
        (∀ s ∈ before, s.fault? = none) ∧ stage.fault? = some fault := by
  have hfault : fault? (ofJson (.object members)) = fault? (nodeOf kind (entries members)) := by
    rw [ofJson_isOfKind h]
    cases nodeOf kind (entries members) <;> rfl
  rw [← fault?_eq_some, hfault, fault?_nodeOf h.fields, List.findSome?_eq_some_iff]
  constructor
  · rintro ⟨before, stage, after, hstages, hstage, hbefore⟩
    exact ⟨before, stage, after, hstages, hbefore, hstage⟩
  · rintro ⟨before, stage, after, hstages, hbefore, hstage⟩
    exact ⟨before, stage, after, hstages, hstage, hbefore⟩

end Decode

/-- A node object leads to one of its children when no stage in front of the child has a fault. -/
inductive Json.LeadsTo : Json → Json → Prop where
  | child {members : List (Json.Key × Json)} {kind : Kind} {before after : List Stage} {j : Json} :
      IsOfKind members kind → kind.stages members = before ++ .child j :: after →
      (∀ s ∈ before, s.fault? = none) → LeadsTo (.object members) j

/-- A fault goes up unchanged, however deep it is raised. -/
theorem Json.ofJson_of_leadsTo {j j' : Json} (h : Relation.ReflTransGen LeadsTo j j')
    {fault : Fault} (hj' : ofJson j' = .error fault) : ofJson j = .error fault := by
  induction h with
  | refl => exact hj'
  | tail _ hlead ih =>
    cases hlead with
    | child hkind hstages hbefore =>
      have hchild := fault?_eq_some.2 hj'
      exact ih ((ofJson_eq_error hkind fault).2 ⟨_, _, _, hstages, hbefore, hchild⟩)

/-! ## Documents at a path -/

theorem name_prefix_append {kind : Kind} {label : String} (rest : String)
    (h : kind.name.toList <+: label.toList) : kind.name.toList <+: (label ++ rest).toList := by
  rw [String.toList_append]
  exact h.trans (List.prefix_append _ _)

/-- A message has no colon, or it begins with the name of a kind. -/
theorem Fault.message_cases (fault : Fault) :
    ':' ∉ fault.message.toList ∨ ∃ kind : Kind, kind.name.toList <+: fault.message.toList := by
  cases fault with
  | blank | null | json | typeless => exact .inl (by decide)
  | body kind => exact .inr ⟨kind, name_prefix_append _ (List.prefix_refl _)⟩
  | literal => exact .inr ⟨.literal, by decide⟩
  | declaration found =>
    have hname : (Kind.name .variableDeclaration).toList
        <+: ("VariableDeclaration: unexpected ").toList := by decide
    exact .inr ⟨.variableDeclaration,
      name_prefix_append " in declarations" (name_prefix_append found hname)⟩
  | functionName found => exact .inr ⟨.functionDeclaration, name_prefix_append found (by decide)⟩
  | functionBody found => exact .inr ⟨.functionDeclaration, name_prefix_append found (by decide)⟩

theorem Kind.isAlpha_of_mem_name (kind : Kind) : ∀ c ∈ kind.name.toList, c.isAlpha = true := by
  refine List.all_eq_true.1 ?_
  cases kind <;> rfl

/-- The path is not set in front of a message twice.  A path that begins with the name of a kind is
left out, since a message may begin with that name and a colon. -/
theorem Fault.not_prefix_message (fault : Fault) {path : String}
    (hpath : ∀ kind : Kind, ¬ kind.name.toList <+: path.toList) :
    ¬ (path ++ ": ").toList <+: fault.message.toList := by
  intro htwice
  rw [String.toList_append] at htwice
  rcases fault.message_cases with hcolon | ⟨kind, hname⟩
  · exact hcolon (htwice.subset (List.mem_append_right _ List.mem_cons_self))
  · have hfront := (List.prefix_append path.toList _).trans htwice
    rcases List.prefix_or_prefix_of_prefix hfront hname with ⟨tail, htail⟩ | hlong
    · cases tail with
      | nil => exact hpath kind (by rw [← htail, List.append_nil])
      | cons c tail =>
        -- the colon after the path stands inside the name
        obtain ⟨rest, hrest⟩ := hname
        rw [← hrest, ← htail, List.append_assoc, List.prefix_append_right_inj] at htwice
        have hcolon : ':' = c := (List.cons_prefix_cons.1 htwice).1
        have hletter := kind.isAlpha_of_mem_name ':'
          (htail ▸ List.mem_append_right _ (hcolon ▸ List.mem_cons_self))
        cases hletter
    · exact hpath kind hlong

/-- The document at a path of a file tree. -/
theorem FileTree.parse_eq_parseAt {t : FileTree} {path document : String}
    (h : t.read path = .ok document) :
    (t.parse path).mapError DocumentFault.message = Node.parseAt path document := by
  rw [FileTree.parse, h, Node.parseAt]
  dsimp only
  cases Node.parse document <;> rfl

theorem Node.parseAt_of_leadsTo {path document : String} {j j' : Json} {fault : Fault}
    (hread : Json.read? document = some j) (hpath : Relation.ReflTransGen Json.LeadsTo j j')
    (hj' : ofJson j' = .error fault) :
    Node.parseAt path document = .error (path ++ ": " ++ fault.message) := by
  rw [Node.parseAt, Node.parse_eq_of_read hread, Json.ofJson_of_leadsTo hpath hj']
  rfl

/-- A node object fails with the fault of its first stage that has one, whatever the stages after it
are.  The fault reaches the document unchanged from any depth, and its message does not depend on
the path, which is set in front of it once.  What is said about
malformed JSON is always the text of `Fault.json`, also where another message includes it.  That no
message begins with the path rests on this, since the details of a malformed text could begin with
anything. -/
theorem Node.first_fault :
    (∀ (members : List (Json.Key × Json)) (kind : Kind), IsOfKind members kind →
      ∀ fault, ofJson (.object members) = .error fault ↔
        ∃ before stage after, kind.stages members = before ++ stage :: after ∧
          (∀ s ∈ before, s.fault? = none) ∧ stage.fault? = some fault) ∧
    (∀ (path document : String) (j j' : Json) (fault : Fault), Json.read? document = some j →
      Relation.ReflTransGen Json.LeadsTo j j' → ofJson j' = .error fault →
      Node.parseAt path document = .error (path ++ ": " ++ fault.message)) ∧
    (∀ document : String, (∃ n, ∀ path, Node.parseAt path document = .ok n) ∨
      ∃ fault : Fault, ∀ path,
        Node.parseAt path document = .error (path ++ ": " ++ fault.message) ∧
        ((∀ kind : Kind, ¬ kind.name.toList <+: path.toList) →
          ¬ (path ++ ": ").toList <+: fault.message.toList)) ∧
    ∀ (files : FileTree) (path document : String), files.read path = .ok document →
      (files.parse path).mapError DocumentFault.message = Node.parseAt path document := by
  refine ⟨fun _ _ h => ofJson_eq_error h, fun _ _ _ _ _ hread hpath hj' =>
    Node.parseAt_of_leadsTo hread hpath hj', fun document => ?_, fun _ _ _ h =>
    FileTree.parse_eq_parseAt h⟩
  cases hparse : Node.parse document with
  | ok n => exact .inl ⟨n, fun path => by rw [Node.parseAt, hparse]; rfl⟩
  | error fault =>
    refine .inr ⟨fault, fun path => ⟨?_, fault.not_prefix_message⟩⟩
    rw [Node.parseAt, hparse]
    rfl

set_option maxRecDepth 2000 in
/-- Of the faults of a function, that of its second parameter comes first.  Its name and its body
cannot be decoded either. -/
theorem Node.first_fault_parameter :
    Node.parseAt "main.json" ("\x7b\"type\":\"Program\",\"body\":[\x7b\"body\":[],\"id\":[],"
      ++ "\"params\":[null,\x7b\x7d],\"type\":\"FunctionDeclaration\"\x7d]\x7d")
      = .error ("main.json" ++ ": " ++ "node without type") := by
  let function : List (Json.Key × Json) := [(⟨"body", 0⟩, .array []), (⟨"id", 0⟩, .array []),
    (⟨"params", 0⟩, .array [.null, .object []]), (⟨"type", 0⟩, .string "FunctionDeclaration")]
  let program : List (Json.Key × Json) :=
    [(⟨"type", 0⟩, .string "Program"), (⟨"body", 0⟩, .array [.object function])]
  have hprogram : IsOfKind program .program := isOfKind_iff.2 ⟨rfl, rfl⟩
  have hfunction : IsOfKind function .functionDeclaration := isOfKind_iff.2 ⟨rfl, rfl⟩
  have hbody : Json.LeadsTo (.object program) (.object function) :=
    @Json.LeadsTo.child _ _ [.array .program (.array [.object function])] [] _ hprogram rfl
      (by simp [Stage.fault?])
  have hparameter : Json.LeadsTo (.object function) (.object []) :=
    @Json.LeadsTo.child _ _
      [.array .functionDeclaration (.array [.null, .object []]), .child .null] _ _ hfunction rfl
      (by simp [Stage.fault?, ofJson, fault?])
  exact Node.first_fault.2.1 "main.json" _ _ _ .typeless (by cbv) (.head hbody (.single hparameter))
    rfl

end Scaffold
