import Scaffold.Proofs.Tree.Member
import Scaffold.Proofs.Tree.Shape

/-!
# The grammar of node objects

A node object is described without reference to decoding.  Every field that it
carries has the shape of the table of fields, its type is a text that is not
empty, and the fields that its kind uses fill their slots (`Kind.slots`,
`Json.Fits`).  Nothing more is asked of the other fields.

The main theorem, `ofJson_succeeds`, says that decoding succeeds on exactly the
nulls and the node objects, as long as no key is repeated.  It follows the
recursion of decoding.  For each kind `nodeOf_succeeds` reads off the slots from
the order in which the children are decoded.
-/

namespace Scaffold

/-! ## Slots and node objects -/

/-- What a field may hold besides a null, when the kind of the node uses it. -/
inductive Slot where
  /-- A node. -/
  | child
  /-- A list of nodes and nulls. -/
  | children
  /-- A node of one kind. -/
  | only (kind : Kind)
  /-- A list of nodes of one kind and nulls. -/
  | listOf (kind : Kind)
  /-- A literal value. -/
  | value
  deriving DecidableEq, Repr

/-- The fields that a kind looks into, in the order in which they are decoded. -/
def Kind.slots : Kind → List (Field × Slot)
  | .program | .blockStatement => [(.body, .children)]
  | .expressionStatement => [(.expression, .child)]
  | .returnStatement | .unaryExpression | .updateExpression => [(.argument, .child)]
  | .ifStatement => [(.test, .child), (.consequent, .child), (.alternate, .child)]
  | .forStatement => [(.init, .child), (.test, .child), (.update, .child), (.body, .child)]
  | .whileStatement => [(.test, .child), (.body, .child)]
  | .breakStatement | .continueStatement | .identifier => []
  | .variableDeclaration => [(.declarations, .listOf .variableDeclarator)]
  | .variableDeclarator => [(.id, .child), (.init, .child)]
  | .functionDeclaration =>
    [(.params, .children), (.id, .only .identifier), (.body, .only .blockStatement)]
  | .literal => [(.value, .value)]
  | .binaryExpression | .logicalExpression | .assignmentExpression =>
    [(.left, .child), (.right, .child)]
  | .memberExpression => [(.object, .child), (.property, .child)]
  | .callExpression => [(.callee, .child), (.arguments, .children)]
  | .arrayExpression => [(.elements, .children)]

open Decode (Holds)

/-- An object with the type name of a kind. -/
def Json.HasKind (kind : Kind) (j : Json) : Prop :=
  ∃ members, j = .object members ∧ Holds members .type (.string kind.name)

mutual

/-- A node object. -/
inductive Json.IsNode : Json → Prop where
  | object {members : List (Json.Key × Json)} {type : String} :
      (∀ f j, Holds members f j → f.shape.Describes j) →
      Holds members .type (.string type) →
      type ≠ "" →
      (∀ kind : Kind, kind.name = type →
        ∀ slot ∈ kind.slots, ∀ j, Holds members slot.1 j → Json.Fits slot.2 j) →
      IsNode (.object members)

/-- A JSON value that may stand in a slot. -/
inductive Json.Fits : Slot → Json → Prop where
  | null {slot : Slot} : Fits slot .null
  | child {j : Json} : j.IsNode → Fits .child j
  | children {elements : List Json} : (∀ j ∈ elements, Fits .child j) →
      Fits .children (.array elements)
  | only {kind : Kind} {j : Json} : j.IsNode → j.HasKind kind → Fits (.only kind) j
  | listOf {kind : Kind} {elements : List Json} : (∀ j ∈ elements, Fits (.only kind) j) →
      Fits (.listOf kind) (.array elements)
  | value {j : Json} : j.InRange → Fits .value j

end

namespace Kind

theorem ofName?_name (kind : Kind) : ofName? kind.name = some kind := by
  cases kind <;> rfl

theorem ofName?_eq_some {name : String} {kind : Kind} :
    ofName? name = some kind ↔ kind.name = name := by
  constructor
  · intro h
    simpa using List.find?_some h
  · rintro rfl
    exact ofName?_name kind

theorem ofName?_eq_none {name : String} :
    ofName? name = none ↔ ∀ kind : Kind, kind.name ≠ name := by
  rw [Option.eq_none_iff_forall_ne_some]
  exact forall_congr' fun kind => not_congr ofName?_eq_some

theorem name_injective : Function.Injective name := fun a b h =>
  Option.some.inj <| by rw [← ofName?_name a, h, ofName?_name b]

end Kind

namespace Decode

/-! ## Inverting the decoding of one node -/

theorem bind_eq_ok {ε α β : Type} {x : Except ε α} {f : α → Except ε β} {b : β} :
    (x >>= f) = .ok b ↔ ∃ a, x = .ok a ∧ f a = .ok b := by
  cases x with
  | error e => exact ⟨nofun, nofun⟩
  | ok a => exact ⟨fun h => ⟨a, rfl, h⟩, fun | ⟨_, rfl, h⟩ => h⟩

/-- Whatever a computation returns has a property. -/
def Gives {α : Type} (x : Except Fault α) (P : α → Prop) : Prop := ∀ a, x = .ok a → P a

theorem Gives.ok {α : Type} {a : α} {P : α → Prop} (h : P a) : Gives (.ok a) P
  | _, rfl => h

theorem Gives.error {α : Type} {fault : Fault} {P : α → Prop} : Gives (.error fault) P := by
  intro a h
  cases h

theorem Gives.bind {α β : Type} {x : Except Fault α} {f : α → Except Fault β} {P : β → Prop}
    (h : ∀ a, x = .ok a → Gives (f a) P) : Gives (x >>= f) P := by
  intro b hb
  obtain ⟨a, ha, hb⟩ := bind_eq_ok.1 hb
  exact h a ha b hb

/-- A node object is decoded after its fields are checked and its type is known. -/
theorem node_eq_ok {es : Entries} {n : Node} :
    node es = .ok n ↔ accepts es = true ∧ text .type es ≠ "" ∧
      ((∃ kind : Kind, kind.name = text .type es ∧ nodeOf kind es = .ok n) ∨
        ((∀ kind : Kind, kind.name ≠ text .type es) ∧ n = .unknown (text .type es) (span es))) := by
  rw [node]
  by_cases haccepts : accepts es = true
  · by_cases htype : text .type es = ""
    · simp [haccepts, htype]
    · simp only [haccepts, htype, Bool.not_true, Bool.false_eq_true, if_false, ne_eq,
        not_false_eq_true, true_and]
      cases hname : Kind.ofName? (text .type es) with
      | some kind =>
        have hkind := Kind.ofName?_eq_some.1 hname
        constructor
        · exact fun h => .inl ⟨kind, hkind, h⟩
        · rintro (⟨kind', hkind', h⟩ | ⟨hnone, -⟩)
          · rwa [Kind.name_injective (hkind.trans hkind'.symm)]
          · exact absurd hkind (hnone kind)
      | none =>
        have hnone := Kind.ofName?_eq_none.1 hname
        constructor
        · exact fun h => .inr ⟨hnone, (Except.ok.inj h).symm⟩
        · rintro (⟨kind, hkind, -⟩ | ⟨-, rfl⟩)
          · exact absurd hkind (hnone kind)
          · rfl
  · simp [haccepts]

theorem kind_nodeOf (kind : Kind) (es : Entries) :
    Gives (nodeOf kind es) fun n => n.kind = .inl kind := by
  cases kind <;> simp only [nodeOf] <;> repeat refine .bind fun _ _ => ?_
  all_goals exact .ok rfl

theorem kindName_node {es : Entries} {n : Node} (h : node es = .ok n) :
    n.kindName = text .type es := by
  obtain ⟨-, -, ⟨kind, hname, hn⟩ | ⟨-, rfl⟩⟩ := node_eq_ok.1 h
  · rw [Node.kindName, kind_nodeOf kind es n hn, ← hname]
  · rfl

/-! ## Successes -/

/-- A computation returns something. -/
def Succeeds {α : Type} (x : Except Fault α) : Prop := ∃ a, x = .ok a

theorem succeeds_ok {α : Type} (a : α) : Succeeds (.ok a) ↔ True := iff_true_intro ⟨a, rfl⟩

theorem not_succeeds_error {α : Type} (fault : Fault) :
    ¬ Succeeds (.error fault : Except Fault α) :=
  nofun

theorem succeeds_bind {α β : Type} {x : Except Fault α} {f : α → Except Fault β} :
    Succeeds (x >>= f) ↔ ∃ a, x = .ok a ∧ Succeeds (f a) := by
  simp only [Succeeds, bind_eq_ok]
  rw [exists_comm]
  simp only [exists_and_left]

theorem ofJson_object {members : List (Json.Key × Json)} {n : Option Node} :
    ofJson (.object members) = .ok n ↔ ∃ n', node (entries members) = .ok n' ∧ n = some n' := by
  rw [ofJson]
  cases node (entries members) with
  | error fault => exact ⟨nofun, nofun⟩
  | ok n' =>
    constructor
    · exact fun h => ⟨n', rfl, (Except.ok.inj h).symm⟩
    · rintro ⟨_, heq, rfl⟩
      cases heq
      rfl

/-- The elements of an array are decoded one by one. -/
theorem ofElements_eq_ok : ∀ {js : List Json} {ns : List (Option Node)},
    ofElements js = .ok ns ↔ List.Forall₂ (fun j n => ofJson j = .ok n) js ns
  | [], ns => by
    rw [ofElements, List.forall₂_nil_left_iff, eq_comm]
    exact ⟨Except.ok.inj, congrArg _⟩
  | j :: js, ns => by
    rw [ofElements, List.forall₂_cons_left_iff]
    simp only [bind_eq_ok, ofElements_eq_ok, Except.ok.injEq]
    exact ⟨fun ⟨n, hn, ns, hns, h⟩ => ⟨n, ns, hn, hns, h.symm⟩,
      fun ⟨n, ns, hn, hns, h⟩ => ⟨n, hn, ns, hns, h.symm⟩⟩

theorem exists_forall₂_iff {α β : Type} {R : α → β → Prop} {P : β → Prop} {as : List α} :
    (∃ bs, List.Forall₂ R as bs ∧ ∀ b ∈ bs, P b) ↔ ∀ a ∈ as, ∃ b, R a b ∧ P b := by
  induction as with
  | nil => simp
  | cons a as ih =>
    rw [List.forall_mem_cons, ← ih]
    simp only [List.forall₂_cons_left_iff]
    constructor
    · rintro ⟨_, ⟨b, bs, hb, hbs, rfl⟩, hP⟩
      rw [List.forall_mem_cons] at hP
      exact ⟨⟨b, hb, hP.1⟩, bs, hbs, hP.2⟩
    · rintro ⟨⟨b, hb, hPb⟩, bs, hbs, hP⟩
      exact ⟨b :: bs, ⟨b, bs, hb, hbs, rfl⟩, List.forall_mem_cons.2 ⟨hPb, hP⟩⟩

/-- All elements of an array are decoded and pass a check. -/
theorem ofElements_check {js : List Json} {α : Type} {check : List (Option Node) → Except Fault α}
    {P : Option Node → Prop} (hcheck : ∀ ns, Succeeds (check ns) ↔ ∀ o ∈ ns, P o) :
    Succeeds (ofElements js >>= check) ↔ ∀ j ∈ js, ∃ o, ofJson j = .ok o ∧ P o := by
  rw [succeeds_bind, ← exists_forall₂_iff]
  simp only [ofElements_eq_ok, hcheck]

theorem ofElements_succeeds {js : List Json} :
    Succeeds (ofElements js) ↔ ∀ j ∈ js, Succeeds (ofJson j) := by
  have h := @ofElements_check js _ .ok (fun _ => True)
    fun ns => iff_of_true ⟨ns, rfl⟩ fun _ _ => trivial
  simp only [succeeds_bind, succeeds_ok, and_true] at h
  exact h

theorem array_succeeds {js : List Json} (h : ∀ j ∈ js, Succeeds (ofJson j) ↔ j.Fits .child) :
    Succeeds (ofElements js) ↔ (Json.array js).Fits .children := by
  rw [ofElements_succeeds, forall₂_congr h]
  exact ⟨.children, fun | .children h => h⟩

/-- The kind of a decoded node is the one that its object names. -/
theorem kind_ofJson {j : Json} (hj : j.KeysDistinct) {n : Node} (h : ofJson j = .ok (some n))
    (kind : Kind) : n.kind = .inl kind ↔ j.HasKind kind := by
  cases hj with
  | object hkeys _ =>
    obtain ⟨n', hnode, heq⟩ := ofJson_object.1 h
    cases heq
    obtain ⟨-, hne, hcases⟩ := node_eq_ok.1 hnode
    constructor
    · intro hkind
      obtain ⟨r, hr, hvalue⟩ := mem_of_text_ne hne
      obtain ⟨j, hj, rfl⟩ := mem_entries.1 hr
      rw [← kindName_node hnode, Node.kindName, hkind] at hvalue
      exact ⟨_, rfl, hvalue ▸ hj⟩
    · rintro ⟨members, heq, htype⟩
      cases heq
      rw [text_holds hkeys (by decide : Field.type ≠ .sourceType) htype] at hcases
      rcases hcases with ⟨kind', hname, hn⟩ | ⟨hnone, -⟩
      · rw [← Kind.name_injective hname]
        exact kind_nodeOf kind' _ n hn
      · exact absurd rfl (hnone kind)
  | _ => cases h

/-- A child that has to be of one kind. -/
theorem ofJson_only {j : Json} (hj : j.KeysDistinct)
    (hchild : Succeeds (ofJson j) ↔ j.Fits .child) (kind : Kind) :
    (∃ o, ofJson j = .ok o ∧ ∀ n, o = some n → n.kind = .inl kind) ↔ j.Fits (.only kind) := by
  constructor
  · rintro ⟨o, ho, hkind⟩
    cases hchild.1 ⟨o, ho⟩ with
    | null => exact .null
    | child hnode =>
      cases hnode with
      | object hfields htype hne hslots =>
        obtain ⟨n, -, rfl⟩ := ofJson_object.1 ho
        exact .only (.object hfields htype hne hslots) ((kind_ofJson hj ho kind).1 (hkind n rfl))
  · intro h
    cases h with
    | null => exact ⟨none, rfl, nofun⟩
    | only hnode hkind =>
      obtain ⟨o, ho⟩ := hchild.2 (.child hnode)
      refine ⟨o, ho, ?_⟩
      rintro n rfl
      exact (kind_ofJson hj ho kind).2 hkind

theorem functionName_succeeds (o : Option Node) :
    Succeeds (functionName o) ↔ ∀ n, o = some n → n.kind = .inl .identifier := by
  cases o with
  | none => simp [functionName, Succeeds]
  | some n => cases n <;> simp [functionName, Succeeds, Node.kind]

theorem functionBody_succeeds (o : Option Node) :
    Succeeds (functionBody o) ↔ ∀ n, o = some n → n.kind = .inl .blockStatement := by
  cases o with
  | none => simp [functionBody, Succeeds]
  | some n => cases n <;> simp [functionBody, Succeeds, Node.kind]

theorem declarators_succeeds : ∀ ns : List (Option Node),
    Succeeds (declarators ns) ↔ ∀ o ∈ ns, ∀ n, o = some n → n.kind = .inl .variableDeclarator
  | [] => iff_of_true ⟨_, rfl⟩ nofun
  | none :: ns => by
    rw [declarators, declarators_succeeds ns, List.forall_mem_cons]
    exact (and_iff_right nofun).symm
  | some n :: ns => by
    rw [List.forall_mem_cons, ← declarators_succeeds ns]
    cases n <;> simp [declarators, succeeds_bind, succeeds_ok, not_succeeds_error, Node.kind]
    rfl

section Slots
variable {members : List (Json.Key × Json)} (hkeys : (members.map fun m => m.1.text).Nodup)
include hkeys

/-- A field is absent, or it has one value and that is what is read of it. -/
theorem last?_entries {f : Field} (hf : f ≠ .sourceType) :
    (last? f (entries members) = none ∧ ∀ P : Json → Prop, ∀ j, Holds members f j → P j) ∨
    ∃ j, Holds members f j ∧ last? f (entries members) = some (reading j) ∧
      ∀ P : Json → Prop, (∀ j', Holds members f j' → P j') ↔ P j := by
  by_cases h : ∃ j, Holds members f j
  · obtain ⟨j, hj⟩ := h
    refine .inr ⟨j, hj, last?_holds hkeys hf hj, fun P => ⟨fun hP => hP j hj, ?_⟩⟩
    intro hP j' hj'
    rwa [holds_unique hkeys hf hj' hj]
  · have habsent : ∀ j, ¬ Holds members f j := fun j hj => h ⟨j, hj⟩
    exact .inl ⟨last?_absent habsent, fun P j hj => absurd hj (habsent j)⟩

theorem literal_succeeds :
    Succeeds (literal (entries members)) ↔ ∀ j, Holds members .value j → j.Fits .value := by
  rw [literal]
  rcases last?_entries hkeys (by decide : Field.value ≠ .sourceType) with
    ⟨hlast, habsent⟩ | ⟨j, -, hlast, hall⟩
  · rw [hlast]
    exact iff_of_true ⟨_, rfl⟩ (habsent _)
  · have hrange : j.Fits .value ↔ j.InRange := by
      constructor
      · intro h
        cases h with
        | null => exact .null
        | value h => exact h
      · exact .value
    rw [hlast, hall, hrange, ← Value.ofJson?_isSome]
    cases hvalue : Value.ofJson? j with
    | none => simp [reading, hvalue, not_succeeds_error]
    | some v => simp [reading, hvalue, succeeds_ok]

variable (hdistinct : ∀ m ∈ members, m.2.KeysDistinct)
  (hchild : ∀ m ∈ members, Succeeds (ofJson m.2) ↔ m.2.Fits .child)
  (hchildren : ∀ m ∈ members, ∀ js, m.2 = .array js →
    ∀ j ∈ js, Succeeds (ofJson j) ↔ j.Fits .child)
include hchild

theorem child_succeeds {f : Field} (hf : f ≠ .sourceType) :
    Succeeds (child f (entries members)) ↔ ∀ j, Holds members f j → j.Fits .child := by
  rw [child]
  rcases last?_entries hkeys hf with ⟨hlast, habsent⟩ | ⟨j, ⟨key, hmem, -⟩, hlast, hall⟩
  · rw [hlast]
    exact iff_of_true ⟨_, rfl⟩ (habsent _)
  · rw [hlast, hall]
    exact hchild _ hmem

include hdistinct in
theorem only_succeeds {f : Field} (hf : f ≠ .sourceType) {kind : Kind} {α : Type}
    {check : Option Node → Except Fault α}
    (hcheck : ∀ o, Succeeds (check o) ↔ ∀ n, o = some n → n.kind = .inl kind) :
    Succeeds (child f (entries members) >>= check)
      ↔ ∀ j, Holds members f j → j.Fits (.only kind) := by
  rw [child]
  rcases last?_entries hkeys hf with ⟨hlast, habsent⟩ | ⟨j, ⟨key, hmem, -⟩, hlast, hall⟩
  · rw [hlast]
    exact iff_of_true ((hcheck none).2 (by simp)) (habsent _)
  · rw [hlast, hall, ← ofJson_only (hdistinct _ hmem) (hchild _ hmem) kind, succeeds_bind]
    simp only [hcheck, reading]

omit hchild
include hchildren

theorem statements_succeeds (kind : Kind) :
    Succeeds (statements kind (entries members))
      ↔ ∀ j, Holds members .body j → j.Fits .children := by
  rw [statements]
  rcases last?_entries hkeys (by decide : Field.body ≠ .sourceType) with
    ⟨hlast, habsent⟩ | ⟨j, ⟨key, hmem, -⟩, hlast, hall⟩
  · rw [hlast]
    exact iff_of_true ⟨_, rfl⟩ (habsent _)
  · rw [hlast, hall]
    cases j with
    | null => exact iff_of_true ⟨_, rfl⟩ .null
    | array js => exact array_succeeds (hchildren _ hmem js rfl)
    | _ => exact iff_of_false (not_succeeds_error _) (by rintro ⟨⟩)

variable (hfields : ∀ f j, Holds members f j → f.shape.Describes j)
include hfields

theorem children_succeeds {f : Field} (hshape : f.shape = .list) :
    Succeeds (children f (entries members)) ↔ ∀ j, Holds members f j → j.Fits .children := by
  have hf : f ≠ .sourceType := by
    rintro rfl
    cases hshape
  rw [children]
  rcases last?_entries hkeys hf with ⟨hlast, habsent⟩ | ⟨j, hj, hlast, hall⟩
  · rw [hlast]
    exact iff_of_true ⟨_, rfl⟩ (habsent _)
  · obtain ⟨_, hmem, _⟩ := id hj
    rw [hlast, hall]
    have hdescribes := hshape ▸ hfields f j hj
    cases hdescribes with
    | null => exact iff_of_true ⟨_, rfl⟩ .null
    | list => exact array_succeeds (hchildren _ hmem _ rfl)

include hdistinct in
theorem declarations_succeeds :
    Succeeds (children .declarations (entries members) >>= declarators)
      ↔ ∀ j, Holds members .declarations j → j.Fits (.listOf .variableDeclarator) := by
  rw [children]
  rcases last?_entries hkeys (by decide : Field.declarations ≠ .sourceType) with
    ⟨hlast, habsent⟩ | ⟨j, hj, hlast, hall⟩
  · rw [hlast]
    exact iff_of_true ⟨_, rfl⟩ (habsent _)
  · obtain ⟨_, hmem, _⟩ := id hj
    rw [hlast, hall]
    cases hfields _ _ hj with
    | null => exact iff_of_true ⟨_, rfl⟩ .null
    | @list js =>
      have hfits : (Json.array js).Fits (.listOf .variableDeclarator)
          ↔ ∀ j ∈ js, j.Fits (.only .variableDeclarator) := by
        constructor
        · intro h
          cases h with
          | listOf h => exact h
        · exact .listOf
      refine (ofElements_check declarators_succeeds).trans (Iff.trans ?_ hfits.symm)
      cases hdistinct _ hmem with
      | array hjs => exact forall₂_congr fun j hj =>
          ofJson_only (hjs j hj) (hchildren _ hmem js rfl j hj) .variableDeclarator

include hdistinct hchild in
/-- A node of a known kind is decoded when the fields that the kind uses fill their slots. -/
theorem nodeOf_succeeds (kind : Kind) :
    Succeeds (nodeOf kind (entries members))
      ↔ ∀ slot ∈ kind.slots, ∀ j, Holds members slot.1 j → j.Fits slot.2 := by
  have hone (f : Field) (hf : f ≠ .sourceType) := child_succeeds hkeys hchild hf
  have hmany (f : Field) (hf : f.shape = .list) := children_succeeds hkeys hchildren hfields hf
  have harguments := hmany .arguments rfl
  have helements := hmany .elements rfl
  have hparams := hmany .params rfl
  have hbody := statements_succeeds hkeys hchildren
  have hvalue := literal_succeeds hkeys
  have hdeclarations := declarations_succeeds hkeys hdistinct hchildren hfields
  have hname := only_succeeds hkeys hdistinct hchild (by decide : Field.id ≠ .sourceType)
    functionName_succeeds
  have hblock := only_succeeds hkeys hdistinct hchild (by decide : Field.body ≠ .sourceType)
    functionBody_succeeds
  rw [succeeds_bind] at hdeclarations hname hblock
  simp only [Succeeds] at hone harguments helements hparams hbody hvalue hdeclarations hname hblock
  cases kind with
  | functionDeclaration =>
    simp only [Kind.slots, List.forall_mem_cons, List.not_mem_nil, false_imp_iff, implies_true,
      ← hparams, ← hname, ← hblock, nodeOf, succeeds_bind, succeeds_ok, and_true, exists_and_right,
      ← and_assoc]
  | variableDeclaration =>
    simp only [Kind.slots, List.forall_mem_singleton, ← hdeclarations, nodeOf, succeeds_bind,
      succeeds_ok, and_true]
  | _ =>
    simp [Kind.slots, nodeOf, succeeds_bind, succeeds_ok, hone, harguments, helements, hbody,
      hvalue]

end Slots

/-! ## Decoding -/

/-- A node object is decoded when it is one by the grammar. -/
theorem node_succeeds {members : List (Json.Key × Json)}
    (hkeys : (members.map fun m => m.1.text).Nodup)
    (hkind : (∀ f j, Holds members f j → f.shape.Describes j) → ∀ kind : Kind,
      Succeeds (nodeOf kind (entries members))
        ↔ ∀ slot ∈ kind.slots, ∀ j, Holds members slot.1 j → j.Fits slot.2) :
    Succeeds (node (entries members)) ↔ (Json.object members).IsNode := by
  have haccepts : accepts (entries members) = true
      ↔ ∀ f j, Holds members f j → f.shape.Describes j := by
    simp only [accepts_entries, Shape.accepts_iff]
  constructor
  · rintro ⟨n, hn⟩
    obtain ⟨hfields, hne, hcases⟩ := node_eq_ok.1 hn
    rw [haccepts] at hfields
    obtain ⟨r, hr, hvalue⟩ := mem_of_text_ne hne
    obtain ⟨j, hj, rfl⟩ := mem_entries.1 hr
    refine .object hfields (hvalue ▸ hj) hne fun kind hname => ?_
    rcases hcases with ⟨kind', hname', hn⟩ | ⟨hnone, -⟩
    · rw [← Kind.name_injective (hname'.trans hname.symm), ← hkind hfields]
      exact ⟨n, hn⟩
    · exact absurd hname (hnone kind)
  · intro h
    cases h with
    | object hfields htype hne hslots =>
      have htext := text_holds hkeys (by decide : Field.type ≠ .sourceType) htype
      simp only [Succeeds, node_eq_ok, haccepts, htext]
      rename_i type
      by_cases hknown : ∃ kind : Kind, kind.name = type
      · obtain ⟨kind, hname⟩ := hknown
        obtain ⟨n, hn⟩ := (hkind hfields kind).2 (hslots kind hname)
        exact ⟨n, hfields, hne, .inl ⟨kind, hname, hn⟩⟩
      · exact ⟨_, hfields, hne, .inr ⟨fun kind hname => hknown ⟨kind, hname⟩, rfl⟩⟩

theorem object_fits_child {members : List (Json.Key × Json)} :
    (Json.object members).Fits .child ↔ (Json.object members).IsNode :=
  ⟨fun | .child h => h, .child⟩

/-- Decoding succeeds on the nulls and the node objects. -/
theorem ofJson_succeeds {j : Json} (hj : j.KeysDistinct) :
    Succeeds (ofJson j) ↔ j.Fits .child := by
  suffices (Succeeds (ofJson j) ↔ j.Fits .child) ∧
      ∀ js, j = .array js → ∀ j' ∈ js, Succeeds (ofJson j') ↔ j'.Fits .child from this.1
  induction hj with
  | null => exact ⟨iff_of_true ⟨_, rfl⟩ .null, nofun⟩
  | array _ ih =>
    refine ⟨iff_of_false nofun nofun, ?_⟩
    rintro js ⟨⟩ j hj
    exact (ih j hj).1
  | object hkeys hvalues ih =>
    refine ⟨?_, nofun⟩
    have hnode := node_succeeds hkeys fun hfields =>
      nodeOf_succeeds hkeys hvalues (fun m hm => (ih m hm).1) (fun m hm => (ih m hm).2) hfields
    rw [object_fits_child, ← hnode]
    simp only [Succeeds, ofJson_object]
    exact ⟨fun ⟨_, n, hn, _⟩ => ⟨n, hn⟩, fun ⟨n, hn⟩ => ⟨some n, n, hn, rfl⟩⟩
  | _ => exact ⟨iff_of_false nofun nofun, nofun⟩

end Decode

end Scaffold
