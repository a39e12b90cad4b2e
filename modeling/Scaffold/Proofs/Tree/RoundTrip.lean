import Scaffold.Proofs.Tree.Encoding

/-!
# Documents and well-formed trees

The trees of documents are the well-formed ones, and each of them has a document.

* `wellFormed_ofJson`: what is decoded is well formed.  The children of a decoded
  node come from the readings of its fields (`nodeOf_gives`).
* `Node.exists_encodes`: a well-formed tree has an encoding that can be written.
* `Node.parse_encoding`: writing an encoding and parsing it gives the tree back,
  if and only if the encoding does not nest deeper than the reader allows.
-/

namespace Scaffold

namespace Decode

/-! ## Decoded trees are well formed -/

theorem Gives.then {α β : Type} {x : Except Fault α} {f : α → Except Fault β} {Q : α → Prop}
    {P : β → Prop} (hx : Gives x Q) (hf : ∀ a, Q a → Gives (f a) P) : Gives (x >>= f) P :=
  .bind fun a ha => hf a (hx a ha)

section
variable {es : Entries} {P : Node → Prop}
  (hchild : ∀ e ∈ es, Gives e.2.child fun o => ∀ n ∈ o.toList, P n)
  (hchildren : ∀ e ∈ es, Gives e.2.children fun ns => ∀ n ∈ ns.filterMap id, P n)

include hchild in
theorem child_gives (f : Field) : Gives (child f es) fun o => ∀ n ∈ o.toList, P n := by
  rw [child]
  cases hlast : last? f es with
  | none => exact .ok (by simp)
  | some r => exact hchild _ (last?_mem hlast)

include hchildren in
theorem children_gives (f : Field) :
    Gives (children f es) fun ns => ∀ n ∈ ns.filterMap id, P n := by
  rw [children]
  cases hlast : last? f es with
  | none => exact .ok (by simp)
  | some r => exact hchildren _ (last?_mem hlast)

include hchildren in
theorem statements_gives (kind : Kind) :
    Gives (statements kind es) fun ns => ∀ n ∈ ns.filterMap id, P n := by
  rw [statements]
  cases hlast : last? .body es with
  | none => exact .ok (by simp)
  | some r =>
    dsimp only
    split
    · exact .ok (by simp)
    · exact hchildren _ (last?_mem hlast)
    · exact .error

theorem literal_gives : Gives (literal es) Value.IsJson := by
  rw [literal]
  cases last? .value es with
  | none => exact .ok .null
  | some r =>
    dsimp only
    split
    · next v hv => exact .ok (Value.isJson_ofJson? hv)
    · exact .error

theorem declarators_gives {ns : List (Option Node)} (h : ∀ n ∈ ns.filterMap id, P n) :
    Gives (declarators ns) fun ds => ∀ d ∈ ds, P (.variableDeclarator d) := by
  induction ns with
  | nil => exact .ok nofun
  | cons o ns ih =>
    match o with
    | none => exact ih h
    | some n =>
      have hcons : (some n :: ns).filterMap id = n :: ns.filterMap id := rfl
      rw [hcons, List.forall_mem_cons] at h
      cases n with
      | variableDeclarator d =>
        exact (ih h.2).then fun ds hds => .ok (List.forall_mem_cons.2 ⟨h.1, hds⟩)
      | _ => exact .error

theorem functionName_gives {o : Option Node} (h : ∀ n ∈ o.toList, P n) :
    Gives (functionName o) fun i => ∀ n ∈ (i.map Node.identifier).toList, P n := by
  match o with
  | none => exact .ok nofun
  | some n =>
    cases n with
    | identifier i => exact .ok h
    | _ => exact .error

theorem functionBody_gives {o : Option Node} (h : ∀ n ∈ o.toList, P n) :
    Gives (functionBody o) fun b => ∀ n ∈ (b.map Node.blockStatement).toList, P n := by
  match o with
  | none => exact .ok nofun
  | some n =>
    cases n with
    | blockStatement b => exact .ok h
    | _ => exact .error

include hchild hchildren in
/-- A decoded node is proper, and its children come from the readings of its fields. -/
theorem nodeOf_gives (kind : Kind) :
    Gives (nodeOf kind es) fun n => n.Proper ∧ ∀ c ∈ n.children, P c := by
  have hone := child_gives hchild
  have hmany := children_gives hchildren
  have hbody := statements_gives hchildren
  have happend {l l' : List Node} (hl : ∀ n ∈ l, P n) (hl' : ∀ n ∈ l', P n) :
      ∀ n ∈ l ++ l', P n := List.forall_mem_append.2 ⟨hl, hl'⟩
  cases kind with
  | program | blockStatement => exact (hbody _).then fun _ h => .ok ⟨trivial, h⟩
  | expressionStatement | returnStatement | unaryExpression | updateExpression =>
    exact (hone _).then fun _ h => .ok ⟨trivial, h⟩
  | arrayExpression => exact (hmany _).then fun _ h => .ok ⟨trivial, h⟩
  | ifStatement =>
    exact (hone _).then fun _ htest => (hone _).then fun _ hconsequent =>
      (hone _).then fun _ halternate =>
        .ok ⟨trivial, happend (happend htest hconsequent) halternate⟩
  | forStatement =>
    exact (hone _).then fun _ hinit => (hone _).then fun _ htest => (hone _).then fun _ hupdate =>
      (hone _).then fun _ hloop =>
        .ok ⟨trivial, happend (happend (happend hinit htest) hupdate) hloop⟩
  | whileStatement | variableDeclarator | binaryExpression | logicalExpression
  | assignmentExpression | memberExpression =>
    exact (hone _).then fun _ hfirst => (hone _).then fun _ hsecond =>
      .ok ⟨trivial, happend hfirst hsecond⟩
  | callExpression =>
    exact (hone _).then fun _ hcallee => (hmany _).then fun _ harguments =>
      .ok ⟨trivial, happend hcallee harguments⟩
  | variableDeclaration =>
    exact (hmany _).then fun _ hds => (declarators_gives hds).then fun _ hds =>
      .ok ⟨trivial, List.forall_mem_map.2 hds⟩
  | functionDeclaration =>
    exact (hmany _).then fun _ hparams => (hone _).then fun _ hid =>
      (functionName_gives hid).then fun _ hname => (hone _).then fun _ hblock =>
        (functionBody_gives hblock).then fun _ hblock =>
          .ok ⟨trivial, happend (happend hname hparams) hblock⟩
  | literal => exact literal_gives.then fun _ h => .ok ⟨h, nofun⟩
  | breakStatement | continueStatement | identifier => exact .ok ⟨trivial, nofun⟩

include hchild hchildren in
theorem node_gives : Gives (node es) fun n => n.Proper ∧ ∀ c ∈ n.children, P c := by
  intro n hn
  obtain ⟨-, hne, ⟨kind, -, hn⟩ | ⟨hnone, rfl⟩⟩ := node_eq_ok.1 hn
  · exact nodeOf_gives hchild hchildren kind n hn
  · exact ⟨⟨hne, hnone⟩, nofun⟩

end

mutual

/-- What is decoded from a JSON value is well formed. -/
theorem wellFormed_ofJson : ∀ j : Json, Gives (ofJson j) fun o => ∀ n ∈ o.toList, n.WellFormed
  | .null => .ok nofun
  | .bool _ | .number _ | .string _ | .array _ => .error
  | .object members => by
    intro o ho
    obtain ⟨n, hn, rfl⟩ := ofJson_object.1 ho
    obtain ⟨hproper, hchildren⟩ := node_gives (fun e he => (wellFormed_entries members e he).1)
      (fun e he => (wellFormed_entries members e he).2) n hn
    simpa using Node.WellFormed.intro hproper hchildren

theorem wellFormed_ofElements : ∀ js : List Json,
    Gives (ofElements js) fun ns => ∀ n ∈ ns.filterMap id, n.WellFormed
  | [] => .ok nofun
  | j :: js => by
    refine (wellFormed_ofJson j).then fun o ho => (wellFormed_ofElements js).then fun ns hns => ?_
    have hcons : (o :: ns).filterMap id = o.toList ++ ns.filterMap id := by
      cases o <;> rfl
    exact .ok (hcons ▸ List.forall_mem_append.2 ⟨ho, hns⟩)

theorem wellFormed_ofArray : ∀ j : Json,
    Gives (ofArray j) fun ns => ∀ n ∈ ns.filterMap id, n.WellFormed
  | .array js => wellFormed_ofElements js
  | .null | .bool _ | .number _ | .string _ | .object _ => .ok nofun

theorem wellFormed_entries : ∀ (members : List (Json.Key × Json)) (e : Field × Reading),
    e ∈ entries members → (Gives e.2.child fun o => ∀ n ∈ o.toList, n.WellFormed) ∧
      Gives e.2.children fun ns => ∀ n ∈ ns.filterMap id, n.WellFormed
  | [], _, h => nomatch h
  | (key, j) :: members, e, h => by
    rw [entries] at h
    split at h
    · rcases List.mem_cons.1 h with rfl | h
      · exact ⟨wellFormed_ofJson j, wellFormed_ofArray j⟩
      · exact wellFormed_entries members e h
    · exact wellFormed_entries members e h

end

end Decode

/-! ## Every well-formed tree can be written -/

/-- A tree has an encoding that can be written. -/
def Node.HasText (n : Node) : Prop := ∃ j, n.Encodes j ∧ j.Writable

theorem Children.exists_encodes (ns : List (Option Node))
    (h : ∀ n ∈ ns, ∀ c ∈ n.toList, c.HasText) :
    ∃ js, Children.Encodes ns js ∧ ∀ j ∈ js, j.Writable := by
  induction ns with
  | nil => exact ⟨[], .nil, nofun⟩
  | cons n ns ih =>
    rw [List.forall_mem_cons] at h
    obtain ⟨js, hjs, hw⟩ := ih h.2
    match n with
    | none => exact ⟨.null :: js, .cons .absent hjs, List.forall_mem_cons.2 ⟨.null, hw⟩⟩
    | some n =>
      obtain ⟨j, hj, hwj⟩ := h.1 n (by simp)
      exact ⟨j :: js, .cons (.child hj) hjs, List.forall_mem_cons.2 ⟨hwj, hw⟩⟩

theorem Part.exists_encodes {part : Part} (hnodes : ∀ c ∈ part.nodes, c.HasText)
    (hvalue : ∀ v, part = .value v → v.IsJson) : ∃ j, part.Encodes j ∧ j.Writable := by
  match part with
  | .text t => exact ⟨_, .text, .string⟩
  | .flag b => exact ⟨_, .flag, .bool⟩
  | .child none => exact ⟨_, .absent, .null⟩
  | .child (some n) =>
    obtain ⟨j, hj, hw⟩ := hnodes n (by simp [Part.nodes])
    exact ⟨j, .child hj, hw⟩
  | .children ns =>
    obtain ⟨js, hjs, hw⟩ := Children.exists_encodes ns fun n hn c hc =>
      hnodes c (List.mem_filterMap.2 ⟨n, hn, Option.mem_toList.1 hc⟩)
    exact ⟨_, .children hjs, .array hw⟩
  | .value v =>
    obtain ⟨j, hj, hw⟩ := Value.exists_encodes (hvalue v rfl)
    exact ⟨j, .value hj, hw⟩

theorem Parts.exists_encodes (parts : List (Field × Part))
    (h : ∀ p ∈ parts, ∃ j, p.2.Encodes j ∧ j.Writable) :
    ∃ members, Parts.Encodes parts members ∧
      (∀ m ∈ members, m.1.surplus = Json.quotedSurplus m.1.text) ∧ ∀ m ∈ members, m.2.Writable := by
  induction parts with
  | nil => exact ⟨[], .nil, nofun, nofun⟩
  | cons p parts ih =>
    obtain ⟨f, part⟩ := p
    rw [List.forall_mem_cons] at h
    obtain ⟨⟨j, hj, hwj⟩, hparts⟩ := h
    obtain ⟨members, hmembers, hkeys, hw⟩ := ih hparts
    exact ⟨(.written f.key, j) :: members, .cons rfl hj hmembers,
      List.forall_mem_cons.2 ⟨rfl, hkeys⟩, List.forall_mem_cons.2 ⟨hwj, hw⟩⟩

theorem Node.exists_encodes {n : Node} (h : n.WellFormed) : n.HasText := by
  induction h with
  | @intro n hproper _ ih =>
    obtain ⟨members, hmembers, hkeys, hw⟩ := Parts.exists_encodes n.parts fun p hp =>
      Part.exists_encodes (fun c hc => ih c (Node.mem_children.2 ⟨p, hp, hc⟩)) (by
        obtain ⟨f, part⟩ := p
        rintro v rfl
        exact hproper.value hp)
    refine ⟨.object ((.written Field.type.key, .string n.kindName) ::
      (members ++ [(.written Field.loc.key, n.span.toJson)])), .object rfl hmembers rfl, ?_⟩
    refine .object ?_ ?_
    · rw [List.forall_mem_cons, List.forall_mem_append, List.forall_mem_singleton]
      exact ⟨rfl, hkeys, rfl⟩
    · rw [List.forall_mem_cons, List.forall_mem_append, List.forall_mem_singleton]
      exact ⟨.string, hw, n.span.writable_toJson⟩

/-! ## Documents -/

theorem Node.wellFormed_parse {document : String} {n : Node} (h : Node.parse document = .ok n) :
    n.WellFormed := by
  obtain ⟨j, -, hj⟩ := Node.parse_eq_ok.1 h
  exact Decode.wellFormed_ofJson j _ hj n (by simp)

/-- An encoding is parsed to its tree unless it nests too deep. -/
theorem Node.parse_text {n : Node} (h : n.WellFormed) {j : Json} (hj : n.Encodes j)
    (hw : j.Writable) : Node.parse j.text = .ok n ↔ j.depth ≤ Json.nestingLimit := by
  have hdecode := Decode.ofJson_encodes h j hj
  rw [Node.parse_eq_ok]
  constructor
  · rintro ⟨j', hread, -⟩
    exact ((Json.read?_text hw).1 hread).2
  · exact fun hdepth => ⟨j, (Json.read?_text hw).2 ⟨rfl, hdepth⟩, hdecode⟩

/-- Decoding undoes encoding for every well-formed tree whose encoding does not nest too deep, and
the trees of documents are well formed. -/
theorem Node.parse_encoding (t : Node) :
    (t.WellFormed → (∃ j, t.Encodes j ∧ j.Writable) ∧
      ∀ j, t.Encodes j →
        (j.Writable → (Node.parse j.text = .ok t ↔ j.depth ≤ Json.nestingLimit)) ∧
        ∀ document, Json.read? document = some j → Node.parse document = .ok t) ∧
    ∀ document, Node.parse document = .ok t → t.WellFormed := by
  refine ⟨fun h => ⟨Node.exists_encodes h, fun j hj => ⟨Node.parse_text h hj, ?_⟩⟩, ?_⟩
  · intro document hread
    exact (Node.parse_of_read hread t).2 (Decode.ofJson_encodes h j hj)
  · exact fun document => Node.wellFormed_parse

/-! ## A tree that is too deep -/

/-- Arrays inside each other, `n` around an empty one. -/
def Value.nested : Nat → Value
  | 0 => .array []
  | n + 1 => .array [Value.nested n]

/-- Arrays inside each other, as JSON. -/
def Json.nested : Nat → Json
  | 0 => .array []
  | n + 1 => .array [Json.nested n]

theorem Value.isJson_nested (n : Nat) : (Value.nested n).IsJson := by
  induction n with
  | zero => exact .array (by simp)
  | succ n ih => exact .array (List.forall_mem_singleton.2 ih)

theorem Value.encodes_nested : ∀ n, (Value.nested n).Encodes (Json.nested n)
  | 0 => .array .nil
  | n + 1 => .array (.cons (Value.encodes_nested n) .nil)

theorem Json.writable_nested : ∀ n, (Json.nested n).Writable
  | 0 => .array nofun
  | n + 1 => .array (List.forall_mem_singleton.2 (Json.writable_nested n))

theorem Json.depth_nested : ∀ n, (Json.nested n).depth = n + 1
  | 0 => rfl
  | n + 1 => by
    rw [Json.nested, Json.depth, Json.elementDepth, Json.elementDepth, Json.depth_nested n]
    rfl

/-- The object of a literal. -/
def Json.ofLiteral (value : Json) : Json :=
  .object [(.written "type", .string "Literal"), (.written "value", value),
    (.written "raw", .string ""), (.written "loc", Span.toJson {})]

theorem Node.encodes_literal {v : Value} {j : Json} (h : v.Encodes j) :
    (Node.literal v "" {}).Encodes (.ofLiteral j) :=
  @Node.Encodes.object (.literal v "" {}) (.written "type") (.written "loc")
    [(.written "value", j), (.written "raw", .string "")] rfl
    (.cons rfl (.value h) (.cons rfl .text .nil)) rfl

theorem Json.writable_ofLiteral {j : Json} (h : j.Writable) : (Json.ofLiteral j).Writable := by
  refine .object ?_ ?_
  · simp [Json.Key.written]
  · simp only [List.forall_mem_cons, List.not_mem_nil, false_imp_iff, implies_true, and_true]
    exact ⟨.string, h, .string, Span.writable_toJson _⟩

theorem Json.depth_ofLiteral (j : Json) :
    (Json.ofLiteral j).depth = Json.deeper j.depth 2 + 1 := by
  have hspan : (Span.toJson {}).depth = 2 := rfl
  simp [Json.ofLiteral, Json.depth, Json.memberDepth, hspan, Json.deeper]

/-- A literal of twelve thousand arrays is a well-formed tree that cannot be parsed. -/
theorem Node.not_parse_nested :
    (Node.literal (Value.nested 11999) "" {}).WellFormed ∧
    (Node.literal (Value.nested 11999) "" {}).Encodes (.ofLiteral (Json.nested 11999)) ∧
    (Json.ofLiteral (Json.nested 11999)).Writable ∧
    Node.parse (Json.ofLiteral (Json.nested 11999)).text
      ≠ .ok (Node.literal (Value.nested 11999) "" {}) := by
  have hwell : (Node.literal (Value.nested 11999) "" {}).WellFormed :=
    .intro (Value.isJson_nested _) nofun
  have hencodes := Node.encodes_literal (Value.encodes_nested 11999)
  have hwritable := Json.writable_ofLiteral (Json.writable_nested 11999)
  refine ⟨hwell, hencodes, hwritable, fun h => ?_⟩
  have hdepth := (Node.parse_text hwell hencodes hwritable).1 h
  rw [Json.depth_ofLiteral, Json.depth_nested] at hdepth
  exact absurd hdepth (by decide)

/-- A literal of as many arrays as the reader allows is parsed. -/
theorem Node.parse_nested :
    (Node.literal (Value.nested 9998) "" {}).WellFormed ∧
    Node.parse (Json.ofLiteral (Json.nested 9998)).text
      = .ok (Node.literal (Value.nested 9998) "" {}) := by
  have hwell : (Node.literal (Value.nested 9998) "" {}).WellFormed :=
    .intro (Value.isJson_nested _) nofun
  have hencodes := Node.encodes_literal (Value.encodes_nested 9998)
  have hwritable := Json.writable_ofLiteral (Json.writable_nested 9998)
  refine ⟨hwell, ?_⟩
  refine ((((Node.parse_encoding _).1 hwell).2 _ hencodes).1 hwritable).2 ?_
  rw [Json.depth_ofLiteral, Json.depth_nested]
  decide

end Scaffold
