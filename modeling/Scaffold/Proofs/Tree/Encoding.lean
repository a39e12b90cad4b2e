import Scaffold.Proofs.Tree.Document
import Scaffold.Proofs.Tree.Literal
import Scaffold.Proofs.Tree.Parts

/-!
# Encoding syntax trees

A tree is encoded as the object of its root: the type name, one member for each
part, and the span.  An absent child is a null, and so is a hole in a list.

A tree is well formed when no node of it is an unknown one with the type name of
a kind or none, and when its literals have values that JSON has.  Those are
exactly the trees that documents have (`Node.wellFormed_parse`), and for a well
formed tree decoding undoes encoding (`ofJson_encodes`).
-/

namespace Scaffold

/-! ## Spans -/

/-- A line or column in digits. -/
def Json.ofCoordinate (i : Int64) : Json := .number ⟨decide (i.toInt < 0), i.toInt.natAbs, 0, true⟩

/-- The object of a position. -/
def Position.toJson (p : Position) : Json :=
  .object [(.written "line", .ofCoordinate p.line), (.written "column", .ofCoordinate p.column)]

/-- The object of a span. -/
def Span.toJson (s : Span) : Json :=
  .object [(.written "start", s.start.toJson), (.written "end", s.stop.toJson)]

theorem Json.coordinate?_ofCoordinate (before i : Int64) :
    (Json.ofCoordinate i).coordinate? before = some i := by
  have hlower := i.le_toInt
  have hupper := i.toInt_lt
  have hdigits : i.toInt.natAbs < Nat.pow 10 Position.digitLimit := by
    rw [show Nat.pow 10 Position.digitLimit = 10 ^ 19 by rfl]
    omega
  have hsign : (if decide (i.toInt < 0) then -(i.toInt.natAbs : Int) else i.toInt.natAbs)
      = i.toInt := by
    split
    · next h =>
      rw [decide_eq_true_eq] at h
      omega
    · next h =>
      rw [decide_eq_true_eq] at h
      omega
  rw [Json.ofCoordinate, Json.coordinate?, Position.ofNumeral?, if_pos ⟨rfl, hdigits⟩]
  simp only [hsign, Int64.ofInt_toInt]

theorem Json.position?_toJson (before p : Position) : p.toJson.position? before = some p := by
  rw [Position.toJson, Json.position?, Position.set?_cons, if_pos (by decide),
    Json.coordinate?_ofCoordinate, Option.bind_some, Position.set?_cons, if_neg (by decide),
    if_pos (by decide), Json.coordinate?_ofCoordinate, Option.bind_some, Position.set?]

/-- The members of the object of a span set the span. -/
theorem Span.set?_toJson (s : Span) :
    ∃ members, s.toJson = .object members ∧ Span.set? {} members = some s := by
  refine ⟨_, rfl, ?_⟩
  rw [Span.set?_cons, if_pos (by decide), Json.position?_toJson, Option.bind_some, Span.set?_cons,
    if_neg (by decide), if_pos (by decide), Json.position?_toJson, Option.bind_some, Span.set?]

theorem Json.writable_ofCoordinate (i : Int64) : (Json.ofCoordinate i).Writable :=
  .number fun _ => rfl

theorem Position.writable_toJson (p : Position) : p.toJson.Writable := by
  refine .object ?_ ?_
  · simp [Json.Key.written]
  · simp [Json.writable_ofCoordinate]

theorem Span.writable_toJson (s : Span) : s.toJson.Writable := by
  refine .object ?_ ?_
  · simp [Json.Key.written]
  · simp [Position.writable_toJson]

/-! ## Encodings -/

mutual

/-- A JSON value that stands for a tree. -/
inductive Node.Encodes : Node → Json → Prop where
  | object {n : Node} {typeKey spanKey : Json.Key} {members : List (Json.Key × Json)} :
      typeKey.text = Field.type.key → Parts.Encodes n.parts members →
      spanKey.text = Field.loc.key →
      Node.Encodes n (.object
        ((typeKey, .string n.kindName) :: (members ++ [(spanKey, n.span.toJson)])))

/-- The members for the parts of a node, one by one. -/
inductive Parts.Encodes : List (Field × Part) → List (Json.Key × Json) → Prop where
  | nil : Parts.Encodes [] []
  | cons {f : Field} {part : Part} {key : Json.Key} {j : Json} {parts : List (Field × Part)}
      {members : List (Json.Key × Json)} : key.text = f.key → Part.Encodes part j →
      Parts.Encodes parts members → Parts.Encodes ((f, part) :: parts) ((key, j) :: members)

/-- A JSON value that stands for a part of a node. -/
inductive Part.Encodes : Part → Json → Prop where
  | text {t : String} : Part.Encodes (.text t) (.string t)
  | flag {b : Bool} : Part.Encodes (.flag b) (.bool b)
  | absent : Part.Encodes (.child none) .null
  | child {n : Node} {j : Json} : Node.Encodes n j → Part.Encodes (.child (some n)) j
  | children {ns : List (Option Node)} {js : List Json} : Children.Encodes ns js →
      Part.Encodes (.children ns) (.array js)
  | value {v : Value} {j : Json} : v.Encodes j → Part.Encodes (.value v) j

/-- The children in a list, one by one. -/
inductive Children.Encodes : List (Option Node) → List Json → Prop where
  | nil : Children.Encodes [] []
  | cons {n : Option Node} {j : Json} {ns : List (Option Node)} {js : List Json} :
      Part.Encodes (.child n) j → Children.Encodes ns js → Children.Encodes (n :: ns) (j :: js)

end

/-! ## Well-formed trees -/

/-- A node that can be told from all others by its type name, with a value that JSON has. -/
def Node.Proper : Node → Prop
  | .unknown type _ => type ≠ "" ∧ ∀ kind : Kind, kind.name ≠ type
  | .literal value _ _ => value.IsJson
  | _ => True

/-- A tree of proper nodes. -/
inductive Node.WellFormed : Node → Prop where
  | intro {n : Node} : n.Proper → (∀ c ∈ n.children, WellFormed c) → WellFormed n

theorem Node.Proper.value {n : Node} (h : n.Proper) {f : Field} {v : Value}
    (hv : (f, Part.value v) ∈ n.parts) : v.IsJson := by
  cases n with
  | literal value raw span =>
    obtain ⟨-, rfl⟩ : f = .value ∧ v = value := by simpa [Node.parts] using hv
    exact h
  | _ => simp [Node.parts] at hv

/-- A part has the shape of its field. -/
def Part.HasShape : Part → Shape → Prop
  | .text _, shape => shape = .text
  | .flag _, shape => shape = .flag
  | .children _, shape => shape = .list ∨ shape = .any
  | .child _, shape | .value _, shape => shape = .any

theorem Node.parts_shape (n : Node) : ∀ p ∈ n.parts, p.2.HasShape p.1.shape := by
  cases n <;> simp [Node.parts, Part.HasShape, Field.shape]

theorem Part.Encodes.accepts {part : Part} {j : Json} (h : part.Encodes j) {shape : Shape}
    (hshape : part.HasShape shape) : shape.accepts j = true := by
  rw [Shape.accepts_iff]
  cases h with
  | text => cases hshape; exact .text
  | flag => cases hshape; exact .flag
  | absent => exact .null
  | child => cases hshape; exact .any
  | children =>
    rcases hshape with rfl | rfl
    · exact .list
    · exact .any
  | value => cases hshape; exact .any

namespace Decode

/-! ## Decoding undoes encoding -/

/-- All encodings of a tree decode to it. -/
def Recovers (n : Node) : Prop := ∀ j, n.Encodes j → ofJson j = .ok (some n)

theorem ofJson_child {n : Option Node} {j : Json} (h : (Part.child n).Encodes j)
    (hn : ∀ c ∈ n.toList, Recovers c) : ofJson j = .ok n := by
  cases h with
  | absent => rfl
  | @child c j hj => exact hn c (by simp) j hj

theorem ofElements_children {ns : List (Option Node)} {js : List Json}
    (h : Children.Encodes ns js) (hns : ∀ n ∈ ns, ∀ c ∈ n.toList, Recovers c) :
    ofElements js = .ok ns := by
  induction ns generalizing js with
  | nil =>
    cases h with
    | nil => rfl
  | cons n ns ih =>
    cases h with
    | cons hj hjs =>
      rw [List.forall_mem_cons] at hns
      rw [ofElements, ofJson_child hj hns.1, ih hjs hns.2]
      rfl

theorem reads_encodes {part : Part} {j : Json} (h : part.Encodes j)
    (hnodes : ∀ c ∈ part.nodes, Recovers c) (hvalue : ∀ v, part = .value v → v.IsJson) :
    Reads (reading j) part := by
  cases h with
  | text => rfl
  | flag => rfl
  | absent => rfl
  | child hj => exact ofJson_child (.child hj) hnodes
  | children hjs =>
    refine ⟨⟨_, rfl⟩, ofElements_children hjs fun n hn c hc => hnodes c ?_⟩
    exact List.mem_filterMap.2 ⟨n, hn, Option.mem_toList.1 hc⟩
  | @value v j hj => exact Value.ofJson?_encodes hj (hvalue v rfl)

/-- The entries of encoded parts, field by field. -/
theorem entries_parts {parts : List (Field × Part)} {members : List (Json.Key × Json)}
    (h : Parts.Encodes parts members) : (entries members).map Prod.fst = parts.map Prod.fst ∧
      ∀ p ∈ parts, ∃ j, (p.1, reading j) ∈ entries members ∧ p.2.Encodes j := by
  induction parts generalizing members with
  | nil =>
    cases h with
    | nil => simp [entries]
  | cons p parts ih =>
    cases h with
    | @cons f part key j _ members hkey hj hmembers =>
      obtain ⟨hfields, hparts⟩ := ih hmembers
      have hentries : entries ((key, j) :: members) = (f, reading j) :: entries members := by
        rw [entries, hkey, Field.ofKey?_key]
        rfl
      rw [hentries, List.map_cons, List.map_cons, hfields, List.forall_mem_cons]
      refine ⟨rfl, ⟨j, List.mem_cons_self, hj⟩, fun p hp => ?_⟩
      obtain ⟨j', hj', hencodes⟩ := hparts p hp
      exact ⟨j', List.mem_cons_of_mem _ hj', hencodes⟩

theorem accepts_parts {parts : List (Field × Part)} {members : List (Json.Key × Json)}
    (h : Parts.Encodes parts members) (hshapes : ∀ p ∈ parts, p.2.HasShape p.1.shape) :
    accepts (entries members) = true := by
  induction parts generalizing members with
  | nil =>
    cases h with
    | nil => rfl
  | cons p parts ih =>
    cases h with
    | cons hkey hj hmembers =>
      rw [List.forall_mem_cons] at hshapes
      have htail := ih hmembers hshapes.2
      rw [entries, hkey, Field.ofKey?_key, accepts, List.all_cons, Bool.and_eq_true]
      exact ⟨hj.accepts hshapes.1, htail⟩

theorem entries_object {n : Node} {typeKey spanKey : Json.Key} {members : List (Json.Key × Json)}
    (htype : typeKey.text = Field.type.key) (hspan : spanKey.text = Field.loc.key) :
    entries ((typeKey, .string n.kindName) :: (members ++ [(spanKey, n.span.toJson)]))
      = (.type, reading (.string n.kindName)) ::
        (entries members ++ [(.loc, reading n.span.toJson)]) := by
  simp only [entries_eq, List.filterMap_cons, List.filterMap_append, htype, hspan,
    Field.ofKey?_key, Option.map_some, List.filterMap_nil]

theorem accepts_object {n : Node} {members : List (Json.Key × Json)}
    (h : Parts.Encodes n.parts members) :
    accepts ((.type, reading (.string n.kindName)) ::
      (entries members ++ [(.loc, reading n.span.toJson)])) = true := by
  obtain ⟨spanMembers, hspan, hset⟩ := n.span.set?_toJson
  have hloc : Shape.location.accepts n.span.toJson = true := by
    rw [hspan, Shape.accepts, hset]
    rfl
  have hparts := accepts_parts h n.parts_shape
  rw [accepts] at hparts
  rw [accepts, List.all_cons, List.all_append, List.all_cons, List.all_nil, hparts,
    Bool.and_true, Bool.true_and, Bool.and_eq_true]
  exact ⟨rfl, hloc⟩

theorem span_loc {es : Entries} (h : ∀ e ∈ es, e.1 ≠ .loc) {r : Reading}
    {members : List (Json.Key × Json)} (hr : r.value = .object members) :
    span (es ++ [(.loc, r)]) = (Span.set? {} members).getD {} := by
  induction es with
  | nil => simp [span, hr]
  | cons e es ih =>
    rw [List.forall_mem_cons] at h
    have hskip : span (e :: es ++ [(.loc, r)]) = span (es ++ [(.loc, r)]) := by
      simp only [span, List.cons_append, List.foldl_cons, if_neg h.1]
    rw [hskip, ih h.2]

theorem kindName_ne {n : Node} (h : n.Proper) : n.kindName ≠ "" := by
  cases n with
  | unknown type span => exact h.1
  | _ => simp [Node.kindName, Node.kind, Kind.name]

/-- The entries of an encoded node, all of which are found again. -/
theorem finds_object {n : Node} (hproper : n.Proper) (hchildren : ∀ c ∈ n.children, Recovers c)
    {members : List (Json.Key × Json)} (hmembers : Parts.Encodes n.parts members)
    {es : Entries} (hes : es = (.type, reading (.string n.kindName)) ::
      (entries members ++ [(.loc, reading n.span.toJson)])) :
    text .type es = n.kindName ∧ span es = n.span ∧ ∀ p ∈ n.parts, Finds es p.1 p.2 := by
  obtain ⟨hfields, hparts⟩ := entries_parts hmembers
  obtain ⟨spanMembers, hspan, hset⟩ := n.span.set?_toJson
  have honce : (es.map Prod.fst).Nodup := by
    rw [hes, List.map_cons, List.map_append, hfields]
    exact n.parts_fields
  have hmem {e : Field × Reading} (he : e ∈ entries members) : e ∈ es := by
    rw [hes]
    exact List.mem_cons_of_mem _ (List.mem_append_left _ he)
  refine ⟨text_once honce (hes ▸ List.mem_cons_self) rfl, ?_, fun p hp => ?_⟩
  · rw [hes] at honce ⊢
    rw [List.map_cons, List.map_append, ← List.cons_append, List.nodup_append] at honce
    rw [← List.cons_append, span_loc (fun e he => ?_) hspan, hset]
    · rfl
    · exact honce.2.2 e.1 (List.mem_map_of_mem he) .loc List.mem_cons_self
  · obtain ⟨f, part⟩ := p
    obtain ⟨j, hj, hencodes⟩ := hparts (f, part) hp
    refine finds_of_reads honce (hmem hj) (reads_encodes hencodes (fun c hc => ?_) ?_)
    · exact hchildren c (Node.mem_children.2 ⟨(f, part), hp, hc⟩)
    · rintro v rfl
      exact hproper.value hp

/-- Decoding undoes encoding. -/
theorem ofJson_encodes {n : Node} (h : n.WellFormed) : Recovers n := by
  induction h with
  | @intro n hproper _ ih =>
    intro j hj
    cases hj with
    | @object _ typeKey spanKey members htype hmembers hspan =>
      obtain ⟨htext, hspanOf, hparts⟩ := finds_object hproper ih hmembers rfl
      rw [ofJson_object, entries_object htype hspan]
      refine ⟨n, node_eq_ok.2 ⟨?_, ?_, ?_⟩, rfl⟩
      · exact accepts_object hmembers
      · rw [htext]
        exact kindName_ne hproper
      · rw [htext]
        cases hkind : n.kind with
        | inl kind =>
          exact .inl ⟨kind, by rw [Node.kindName, hkind], nodeOf_parts hkind hparts hspanOf⟩
        | inr type =>
          cases n with
          | unknown type span =>
            refine .inr ⟨hproper.2, ?_⟩
            rw [hspanOf]
            rfl
          | _ => cases hkind

end Decode

end Scaffold
