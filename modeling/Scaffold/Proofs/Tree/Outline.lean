import Scaffold.Outline
import Scaffold.Proofs.Tree.FirstFault
import Scaffold.Proofs.Tree.Throughout

/-!
# Outlines of documents

An outline is written by an outliner that changes its level and its text as it
goes.  The text that comes out is the concatenation of the entries of the nodes in
pre-order (`Traversal.listing`), at the level they have below the root, and what
the outliner wrote before makes no difference (`Outliner.text_outline`).

For a document the same entries can be read off its JSON value.  A node object has
an entry of its own, made from the texts and flags of its members, and below it
stand the entries of the node objects in the fields that its type uses, in the
order in which they are written in source texts (`Json.outline`).  Neither the
decoding of nodes nor their children have a part in this.  What is shared with the
decoder are the names of fields and kinds and two readings at the leaves: that of
the value of a literal (`Value.ofJson?`) and that of the members of a span
(`Span.set?`).  A value is written by the same functions as in the entry of a node
(`Text.quote`, `Value.outlineText`).

* `Node.outline_parsed`: the outline of a parsed document lists the node objects of
  the document.
-/

namespace Scaffold

/-! ## What an outliner writes -/

mutual

/-- What a function gives for the nodes of a traversal and their levels, in pre-order.  The root is
at a given level. -/
def Traversal.listing {α : Type} (f : Node → Nat → α) (level : Nat) : Traversal → List α
  | .visit n children => f n level :: Traversal.listingAll f (level + 1) children

/-- What a function gives for the nodes of several traversals. -/
def Traversal.listingAll {α : Type} (f : Node → Nat → α) (level : Nat) : List Traversal → List α
  | [] => []
  | t :: ts => t.listing f level ++ Traversal.listingAll f level ts

end

/-- The listing of a tree is that of its root, and then those of its children one level deeper. -/
theorem Node.listing_eq {α : Type} (f : Node → Nat → α) (level : Nat) (n : Node) :
    n.traversal.listing f level
      = f n level :: n.children.flatMap fun c => c.traversal.listing f (level + 1) := by
  have hall (level : Nat) (cs : List Node) : Traversal.listingAll f level (cs.map Node.traversal)
      = cs.flatMap fun c => c.traversal.listing f level := by
    induction cs with
    | nil => rfl
    | cons c cs ih => rw [List.map_cons, Traversal.listingAll, ih, List.flatMap_cons]
  rw [Node.traversal_eq, Traversal.listing, hall]

namespace Outliner

mutual

/-- Writing a traversal appends its entries and comes back to the level. -/
theorem write_eq (o : Outliner) : ∀ t : Traversal,
    o.write t = { o with text := o.text ++ String.join (t.listing Node.entry o.level) }
  | .visit n children => by
    rw [write, writeAll_eq]
    simp [Traversal.listing, String.append_assoc]

theorem writeAll_eq (o : Outliner) : ∀ ts : List Traversal,
    o.writeAll ts
      = { o with text := o.text ++ String.join (Traversal.listingAll Node.entry o.level ts) }
  | [] => by simp [writeAll, Traversal.listingAll]
  | t :: ts => by
    rw [writeAll, write_eq, writeAll_eq]
    simp [Traversal.listingAll, String.append_assoc]

end

/-- An outline does not depend on what the outliner wrote before. -/
theorem text_outline (o : Outliner) (n : Node) :
    (o.outline (some n)).text = String.join (n.traversal.listing Node.entry 0) := by
  rw [outline, write_eq, String.empty_append]

end Outliner

/-! ## The members of a node object -/

namespace Decode

/-- The values of the members of an object for a field. -/
def fieldValues (f : Field) (members : List (Json.Key × Json)) : List Json :=
  (members.filter fun m => Field.ofKey? m.1.text = some f).map Prod.snd

/-- The last text of a field, empty when there is none. -/
def fieldText (f : Field) (members : List (Json.Key × Json)) : String :=
  ((fieldValues f members).filterMap textOf?).getLast?.getD ""

/-- The last flag of a field, false when there is none. -/
def fieldFlag (f : Field) (members : List (Json.Key × Json)) : Bool :=
  ((fieldValues f members).filterMap flagOf?).getLast?.getD false

/-- A span set on top of the one before it.  A null removes it. -/
def mergeSpan (before : Option Span) : Json → Option Span
  | .object members => (before.getD {}).set? members
  | _ => none

/-- The span of an object, zero when it has none. -/
def fieldSpan (members : List (Json.Key × Json)) : Span :=
  ((fieldValues .loc members).foldl mergeSpan none).getD {}

/-- Steps that look at one field of the entries run over the values of the field. -/
theorem foldl_entries {α : Type} (step : α → Json → α) (f : Field)
    (members : List (Json.Key × Json)) (start : α) :
    (entries members).foldl (fun a e => if e.1 = f then step a e.2.value else a) start
      = (fieldValues f members).foldl step start := by
  induction members generalizing start with
  | nil => rfl
  | cons m members ih =>
    obtain ⟨key, j⟩ := m
    rw [entries, fieldValues]
    cases hkey : Field.ofKey? key.text with
    | none =>
      rw [List.filter_cons_of_neg (by simp [hkey])]
      exact ih start
    | some g =>
      by_cases hg : g = f
      · rw [List.filter_cons_of_pos (by simp [hkey, hg]), List.map_cons, List.foldl_cons,
          List.foldl_cons, if_pos hg]
        exact ih (step start j)
      · rw [List.filter_cons_of_neg (by simp [hkey, hg]), List.foldl_cons, if_neg hg]
        exact ih start

theorem lastOf_entries {α : Type} (pick : Json → Option α) (f : Field)
    (members : List (Json.Key × Json)) (start : α) :
    lastOf pick f start (entries members)
      = ((fieldValues f members).filterMap pick).getLast?.getD start := by
  have hfold : lastOf pick f start (entries members)
      = (fieldValues f members).foldl (fun a j => (pick j).getD a) start := by
    rw [← foldl_entries, lastOf]
    congr 1
    funext a e
    cases pick e.2.value <;> simp
  rw [hfold]
  clear hfold
  induction fieldValues f members generalizing start with
  | nil => rfl
  | cons j js ih =>
    rw [List.foldl_cons, ih]
    cases hj : pick j with
    | none => rw [List.filterMap_cons_none hj, Option.getD_none]
    | some b =>
      rw [List.filterMap_cons_some hj, List.getLast?_cons, Option.getD_some, Option.getD_some]

theorem text_entries (f : Field) (members : List (Json.Key × Json)) :
    text f (entries members) = fieldText f members := by
  rw [text_eq_lastOf, lastOf_entries, fieldText]

theorem flag_entries (f : Field) (members : List (Json.Key × Json)) :
    flag f (entries members) = fieldFlag f members := by
  rw [flag_eq_lastOf, lastOf_entries, fieldFlag]

theorem span_entries (members : List (Json.Key × Json)) :
    span (entries members) = fieldSpan members := by
  rw [span, fieldSpan, ← foldl_entries]
  rfl

end Decode

open Decode

/-! ## The outline of a JSON value -/

/-- The slots of a kind in the order of source texts.  Decoding takes the parameters of a function
before its name. -/
def Kind.sourceSlots : Kind → List (Field × Slot)
  | .functionDeclaration =>
    [(.id, .only .identifier), (.params, .children), (.body, .only .blockStatement)]
  | kind => kind.slots

/-- The JSON values of the nodes in a slot. -/
def Slot.nodes (j : Json) : Slot → List Json
  | .child | .only _ => [j]
  | .children | .listOf _ => elements j
  | .value => []

namespace Json

/-- The values of the nodes in a node object, in the order of source texts. -/
def subnodes (members : List (Key × Json)) : List Json :=
  match Kind.ofName? (fieldText .type members) with
  | some kind => kind.sourceSlots.flatMap fun slot => slot.2.nodes (fieldValue slot.1 members)
  | none => []

/-- The detail of a literal that has no source text. -/
def valueDetail : Json → String
  | .string s => Text.quote s
  | j => ((Value.ofJson? j).map Value.outlineText).getD ""

/-- The detail of a node object of a kind. -/
def detailOf (kind : Kind) (members : List (Key × Json)) : String :=
  match kind with
  | .program => fieldText .sourceType members
  | .variableDeclaration => fieldText .kind members
  | .identifier => fieldText .name members
  | .literal =>
    let raw := fieldText .raw members
    if raw = "" then valueDetail (fieldValue .value members) else raw
  | .binaryExpression | .logicalExpression | .assignmentExpression | .unaryExpression =>
    fieldText .operator members
  | .updateExpression =>
    fieldText .operator members ++ if fieldFlag .isPrefix members then " prefix" else " postfix"
  | .memberExpression => if fieldFlag .computed members then "computed" else ""
  | _ => ""

/-- The detail of a node object. -/
def detail (members : List (Key × Json)) : String :=
  match Kind.ofName? (fieldText .type members) with
  | some kind => detailOf kind members
  | none => "(unsupported)"

/-- The start of a span, when it is located. -/
def positionText (span : Span) : String :=
  if span.start.line = 0 ∧ span.stop.line = 0 then ""
  else " @" ++ toString span.start.line.toInt ++ ":" ++ toString span.start.column.toInt

/-- The entry of a node object at a level. -/
def entry (level : Nat) (members : List (Key × Json)) : String :=
  String.ofList (List.replicate (2 * level) ' ') ++ fieldText .type members
    ++ (if detail members = "" then "" else " " ++ detail members)
    ++ positionText (fieldSpan members) ++ "\n"

theorem sizeOf_lt_of_mem_elements {j e : Json} (h : e ∈ elements j) : sizeOf e < sizeOf j := by
  cases j with
  | array js =>
    have helement : sizeOf e < sizeOf js := List.sizeOf_lt_of_mem h
    simp only [array.sizeOf_spec]
    omega
  | _ => cases h

theorem sizeOf_fieldValue (f : Field) (members : List (Key × Json)) :
    sizeOf (fieldValue f members) < sizeOf (Json.object members) := by
  rw [fieldValue]
  cases hlast : lastMember? f members with
  | none => cases members <;> simp
  | some m =>
    obtain ⟨key, j⟩ := m
    have hmember := List.sizeOf_lt_of_mem (List.mem_filter.1 (List.mem_of_getLast? hlast)).1
    simp only [object.sizeOf_spec, Prod.mk.sizeOf_spec] at hmember ⊢
    omega

theorem sizeOf_lt_of_mem_subnodes {members : List (Key × Json)} {j : Json}
    (h : j ∈ subnodes members) : sizeOf j < sizeOf (Json.object members) := by
  rw [subnodes] at h
  split at h
  · obtain ⟨⟨f, slot⟩, -, hj⟩ := List.mem_flatMap.1 h
    have hvalue := sizeOf_fieldValue f members
    cases slot with
    | child | only =>
      cases List.mem_singleton.1 hj
      exact hvalue
    | children | listOf => exact Nat.lt_trans (sizeOf_lt_of_mem_elements hj) hvalue
    | value => cases hj
  · cases h

/-- The entries of the node objects that a JSON value holds at a level and below: its own, and then
those of the nodes in it. -/
def outline (level : Nat) : Json → List String
  | .object members =>
    entry level members :: (subnodes members).attach.flatMap fun ⟨j, _⟩ => j.outline (level + 1)
  | _ => []
termination_by j => sizeOf j
decreasing_by exact sizeOf_lt_of_mem_subnodes ‹_›

theorem outline_object (level : Nat) (members : List (Key × Json)) :
    (Json.object members).outline level
      = entry level members :: (subnodes members).flatMap (outline (level + 1)) := by
  rw [outline]
  simp

end Json

/-! ## Decoded nodes -/

namespace Decode

/-- JSON values decode to nodes, where those that decode to nothing are left out. -/
def Decodes (js : List Json) (ns : List Node) : Prop :=
  ∃ children, List.Forall₂ (fun j child => ofJson j = .ok child) js children ∧
    ns = children.filterMap id

namespace Decodes
variable {members : List (Json.Key × Json)}

theorem nil : Decodes [] [] := ⟨[], .nil, rfl⟩

theorem append {js js' : List Json} {ns ns' : List Node} (h : Decodes js ns)
    (h' : Decodes js' ns') : Decodes (js ++ js') (ns ++ ns') := by
  obtain ⟨children, hchildren, rfl⟩ := h
  obtain ⟨children', hchildren', rfl⟩ := h'
  exact ⟨children ++ children', List.rel_append hchildren hchildren', List.filterMap_append.symm⟩

theorem child {f : Field} {o : Option Node} (h : child f (entries members) = .ok o) :
    Decodes [fieldValue f members] o.toList := by
  rw [child_entries] at h
  refine ⟨[o], .cons h .nil, ?_⟩
  cases o <;> rfl

theorem children {f : Field} {ns : List (Option Node)}
    (h : children f (entries members) = .ok ns) :
    Decodes (elements (fieldValue f members)) (ns.filterMap id) := by
  rw [children_entries] at h
  exact ⟨ns, ofElements_eq_ok.1 h, rfl⟩

theorem statements {kind : Kind} {ns : List (Option Node)}
    (h : statements kind (entries members) = .ok ns) :
    Decodes (elements (fieldValue .body members)) (ns.filterMap id) := by
  rw [Decode.statements, last?_eq] at h
  rw [fieldValue]
  cases hlast : lastMember? .body members with
  | none =>
    rw [hlast] at h
    cases h
    exact nil
  | some m =>
    obtain ⟨key, j⟩ := m
    rw [hlast] at h
    cases j with
    | null =>
      cases h
      exact nil
    | array js => exact ⟨ns, ofElements_eq_ok.1 h, rfl⟩
    | _ => cases h

theorem declarators {ns : List (Option Node)} {ds : List (Declarator Node)}
    (h : declarators ns = .ok ds) : ns.filterMap id = ds.map .variableDeclarator := by
  induction ns generalizing ds with
  | nil =>
    cases h
    rfl
  | cons o ns ih =>
    rcases o with _ | n
    · exact ih h
    cases n with
    | variableDeclarator d =>
      obtain ⟨ds', hds', heq⟩ := bind_eq_ok.1 h
      cases heq
      exact congrArg (Node.variableDeclarator d :: ·) (ih hds')
    | _ => cases h

theorem functionName {o : Option Node} {id : Option Identifier} (h : functionName o = .ok id) :
    o = id.map .identifier := by
  rcases o with _ | n
  · cases h
    rfl
  · cases n with
    | identifier i =>
      cases h
      rfl
    | _ => cases h

theorem functionBody {o : Option Node} {body : Option (Block Node)}
    (h : functionBody o = .ok body) : o = body.map .blockStatement := by
  rcases o with _ | n
  · cases h
    rfl
  · cases n with
    | blockStatement b =>
      cases h
      rfl
    | _ => cases h

end Decodes

/-- The nodes in the slots of a kind, in source order, are the children of the decoded node. -/
theorem decodes_children {members : List (Json.Key × Json)} {kind : Kind} {n : Node}
    (h : nodeOf kind (entries members) = .ok n) :
    Decodes (kind.sourceSlots.flatMap fun slot => slot.2.nodes (fieldValue slot.1 members))
      n.children := by
  cases kind with
  | breakStatement | continueStatement | identifier =>
    cases h
    exact .nil
  | literal =>
    obtain ⟨_, _, heq⟩ := bind_eq_ok.1 h
    cases heq
    exact .nil
  | program | blockStatement =>
    obtain ⟨body, hbody, heq⟩ := bind_eq_ok.1 h
    cases heq
    simpa [Kind.sourceSlots, Kind.slots, Slot.nodes, Node.children] using Decodes.statements hbody
  | expressionStatement | returnStatement | unaryExpression | updateExpression =>
    obtain ⟨a, ha, heq⟩ := bind_eq_ok.1 h
    cases heq
    exact Decodes.child ha
  | ifStatement =>
    obtain ⟨a, ha, h⟩ := bind_eq_ok.1 h
    obtain ⟨b, hb, h⟩ := bind_eq_ok.1 h
    obtain ⟨c, hc, heq⟩ := bind_eq_ok.1 h
    cases heq
    exact ((Decodes.child ha).append (.child hb)).append (.child hc)
  | forStatement =>
    obtain ⟨a, ha, h⟩ := bind_eq_ok.1 h
    obtain ⟨b, hb, h⟩ := bind_eq_ok.1 h
    obtain ⟨c, hc, h⟩ := bind_eq_ok.1 h
    obtain ⟨d, hd, heq⟩ := bind_eq_ok.1 h
    cases heq
    exact (((Decodes.child ha).append (.child hb)).append (.child hc)).append (.child hd)
  | whileStatement | variableDeclarator | binaryExpression | logicalExpression | memberExpression
  | assignmentExpression =>
    obtain ⟨a, ha, h⟩ := bind_eq_ok.1 h
    obtain ⟨b, hb, heq⟩ := bind_eq_ok.1 h
    cases heq
    exact (Decodes.child ha).append (.child hb)
  | variableDeclaration =>
    obtain ⟨ns, hns, h⟩ := bind_eq_ok.1 h
    obtain ⟨ds, hds, heq⟩ := bind_eq_ok.1 h
    cases heq
    have hchildren := Decodes.children hns
    rw [Decodes.declarators hds] at hchildren
    simpa [Kind.sourceSlots, Kind.slots, Slot.nodes, Node.children] using hchildren
  | functionDeclaration =>
    obtain ⟨params, hparams, h⟩ := bind_eq_ok.1 h
    obtain ⟨name, hname, h⟩ := bind_eq_ok.1 h
    obtain ⟨id, hid, h⟩ := bind_eq_ok.1 h
    obtain ⟨block, hblock, h⟩ := bind_eq_ok.1 h
    obtain ⟨body, hbody, heq⟩ := bind_eq_ok.1 h
    cases heq
    obtain rfl := Decodes.functionName hid
    obtain rfl := Decodes.functionBody hbody
    have hchildren := ((Decodes.child hname).append (.children hparams)).append (.child hblock)
    simpa [Kind.sourceSlots, Slot.nodes, Node.children] using hchildren
  | callExpression =>
    obtain ⟨callee, hcallee, h⟩ := bind_eq_ok.1 h
    obtain ⟨arguments, harguments, heq⟩ := bind_eq_ok.1 h
    cases heq
    have hchildren := (Decodes.child hcallee).append (.children harguments)
    simpa [Kind.sourceSlots, Kind.slots, Slot.nodes, Node.children] using hchildren
  | arrayExpression =>
    obtain ⟨es, hes, heq⟩ := bind_eq_ok.1 h
    cases heq
    simpa [Kind.sourceSlots, Kind.slots, Slot.nodes, Node.children] using Decodes.children hes

theorem span_nodeOf (kind : Kind) (es : Entries) :
    Gives (nodeOf kind es) fun n => n.span = span es := by
  cases kind <;> simp only [nodeOf] <;> repeat refine .bind fun _ _ => ?_
  all_goals exact .ok rfl

theorem literal_entries {members : List (Json.Key × Json)} {v : Value}
    (h : literal (entries members) = .ok v) :
    Value.ofJson? (fieldValue .value members) = some v := by
  rw [literal, last?_eq] at h
  rw [fieldValue]
  cases hlast : lastMember? .value members with
  | none =>
    rw [hlast] at h
    cases h
    rfl
  | some m =>
    rw [hlast] at h
    cases hv : Value.ofJson? m.2 with
    | none =>
      simp only [Option.map_some, reading, hv] at h
      cases h
    | some v' =>
      simp only [Option.map_some, reading, hv, Except.ok.injEq] at h
      rw [h]

/-- The detail of a literal without a source text, from its JSON value. -/
theorem detail_value {j : Json} {v : Value} (h : Value.ofJson? j = some v) (span : Span) :
    (Node.literal v "" span).detail = Json.valueDetail j := by
  cases j with
  | null | bool | string =>
    cases h
    rfl
  | number | array | object =>
    rw [Json.valueDetail, h]
    · obtain ⟨_, -, rfl⟩ := Option.map_eq_some_iff.1 h
      rfl
    · exact nofun

theorem detail_nodeOf (kind : Kind) (members : List (Json.Key × Json)) :
    Gives (nodeOf kind (entries members)) fun n => n.detail = Json.detailOf kind members := by
  cases kind with
  | literal =>
    refine .bind fun v hv => .ok ?_
    rw [Json.detailOf, text_entries]
    split
    · next hraw =>
      rw [hraw]
      exact detail_value (literal_entries hv) _
    · next hraw => exact if_pos hraw
  | _ =>
    simp only [nodeOf]
    repeat refine .bind fun _ _ => ?_
    exact .ok (by simp [Node.detail, Json.detailOf, text_entries, flag_entries])

/-- The entry of a decoded node is that of its object. -/
theorem entry_node {members : List (Json.Key × Json)} {n : Node}
    (h : node (entries members) = .ok n) (level : Nat) :
    n.entry level = Json.entry level members := by
  have htype : n.kindName = fieldText .type members := by
    rw [kindName_node h, text_entries]
  have hrest : n.detail = Json.detail members ∧ n.span = fieldSpan members := by
    obtain ⟨-, -, ⟨kind, hname, hn⟩ | ⟨hnone, rfl⟩⟩ := node_eq_ok.1 h
    · rw [text_entries] at hname
      rw [Json.detail, ← hname, Kind.ofName?_name, ← span_entries]
      exact ⟨detail_nodeOf kind members n hn, span_nodeOf kind _ n hn⟩
    · rw [text_entries] at hnone
      rw [Json.detail, Kind.ofName?_eq_none.2 hnone, ← span_entries]
      exact ⟨rfl, rfl⟩
  rw [Node.entry, Json.entry, htype, hrest.1, hrest.2, Json.positionText]
  simp only [Span.isZero, Bool.and_eq_true, beq_iff_eq]

/-- The nodes in a node object are decoded to the children of its node. -/
theorem decodes_subnodes {members : List (Json.Key × Json)} {n : Node}
    (h : node (entries members) = .ok n) : Decodes (Json.subnodes members) n.children := by
  obtain ⟨-, -, ⟨kind, hname, hn⟩ | ⟨hnone, rfl⟩⟩ := node_eq_ok.1 h
  · rw [text_entries] at hname
    rw [Json.subnodes, ← hname, Kind.ofName?_name]
    exact decodes_children hn
  · rw [text_entries] at hnone
    rw [Json.subnodes, Kind.ofName?_eq_none.2 hnone]
    exact .nil

theorem flatMap_decodes {js : List Json} {ns : List Node} {level : Nat} (h : Decodes js ns)
    (hentries : ∀ n ∈ ns, ∀ j, ofJson j = .ok (some n) →
      n.traversal.listing Node.entry level = j.outline level) :
    (ns.flatMap fun n => n.traversal.listing Node.entry level)
      = js.flatMap (Json.outline level) := by
  obtain ⟨children, hchildren, rfl⟩ := h
  induction hchildren with
  | nil => rfl
  | @cons j child js children hj _ ih =>
    rw [List.flatMap_cons]
    cases child with
    | none =>
      have hnull : j.outline level = [] := by
        cases j with
        | object members =>
          obtain ⟨n, -, heq⟩ := ofJson_object.1 hj
          cases heq
        | _ => rw [Json.outline]; exact nofun
      rw [hnull, List.nil_append]
      exact ih hentries
    | some n =>
      have hsome : (some n :: children).filterMap id = n :: children.filterMap id := rfl
      rw [hsome, List.forall_mem_cons] at hentries
      rw [hsome, List.flatMap_cons, hentries.1 j hj, ih hentries.2]

/-- The entries of a decoded tree are those of its JSON value, by induction over the tree. -/
theorem entries_ofJson {n : Node} {j : Json} (h : ofJson j = .ok (some n)) (level : Nat) :
    n.traversal.listing Node.entry level = j.outline level := by
  -- The induction is over the tree, since an object may hold values that are not decoded as nodes.
  induction n using Node.induction_children generalizing j level with
  | step n ih =>
    cases j with
    | object members =>
      obtain ⟨n', hnode, heq⟩ := ofJson_object.1 h
      cases heq
      rw [Node.listing_eq, Json.outline_object, entry_node hnode,
        flatMap_decodes (decodes_subnodes hnode)]
      intro c hc j hj
      exact ih c hc hj (level + 1)
    | _ => cases h

end Decode

/-- The outline of a parsed document lists the node objects of the document, whatever the outliner
wrote before. -/
theorem Node.outline_parsed {document : String} {n : Node} (h : Node.parse document = .ok n)
    (o : Outliner) :
    ∃ j, Json.read? document = some j ∧
      (o.outline (some n)).text = String.join (j.outline 0) := by
  obtain ⟨j, hread, hj⟩ := Node.parse_eq_ok.1 h
  refine ⟨j, hread, ?_⟩
  rw [Outliner.text_outline, entries_ofJson hj]

set_option maxRecDepth 2000 in
/-- A function whose parameters stand before its name, one of them absent.  One is a literal with a
position, whose value is written as it is read, and one is of no kind.  The outliner has written
before, and has stopped at a level other than the top. -/
theorem Node.outline_parsed_function :
    let document := "\x7b\"type\":\"FunctionDeclaration\",\"params\":[null,"
      ++ "\x7b\"type\":\"Literal\",\"value\":[true,\"c\"],"
      ++ "\"loc\":\x7b\"start\":\x7b\"line\":2\x7d\x7d\x7d,\x7b\"type\":\"Rest\"\x7d],"
      ++ "\"id\":\x7b\"type\":\"Identifier\",\"name\":\"f\"\x7d\x7d"
    let f : Node := .functionDeclaration (some ⟨"f", {}⟩)
      [none, some (.literal (.array [.bool true, .string "c"]) "" ⟨⟨2, 0⟩, {}⟩),
        some (.unknown "Rest" {})] none {}
    Node.parse document = .ok f ∧ ∃ j, Json.read? document = some j ∧
      ((⟨3, "Program\n"⟩ : Outliner).outline (some f)).text = String.join (j.outline 0) ∧
      String.join (j.outline 0) = "FunctionDeclaration\n  Identifier f\n  Literal [true c] @2:0\n"
        ++ "  Rest (unsupported)\n" := by
  intro document f
  let j : Json := .object [(⟨"type", 0⟩, .string "FunctionDeclaration"),
    (⟨"params", 0⟩, .array [.null,
      .object [(⟨"type", 0⟩, .string "Literal"), (⟨"value", 0⟩, .array [.bool true, .string "c"]),
        (⟨"loc", 0⟩, .object [(⟨"start", 0⟩,
          .object [(⟨"line", 0⟩, .number ⟨false, 2, 0, true⟩)])])],
      .object [(⟨"type", 0⟩, .string "Rest")]]),
    (⟨"id", 0⟩, .object [(⟨"type", 0⟩, .string "Identifier"), (⟨"name", 0⟩, .string "f")])]
  have hread : Json.read? document = some j := by
    unfold document j
    cbv
  have hparse : Node.parse document = .ok f := (Node.parse_of_read hread f).2 rfl
  obtain ⟨j', hread', htext⟩ := Node.outline_parsed hparse ⟨3, "Program\n"⟩
  refine ⟨hparse, j', hread', htext, ?_⟩
  rw [← htext]
  decide +kernel

end Scaffold
