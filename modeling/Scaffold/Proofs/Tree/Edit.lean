import Mathlib.Data.List.Nodup
import Scaffold.Proofs.Tree.Grammar

/-!
# Edits of documents

A value in a document is read in a role: as a node, as a list of nodes, as a
span, as a position in a span or as the value of a literal.  The role of a node
object's member depends on the type of the node, and most members have none.

`Json.FieldsDistinct` says that no two keys of an object name the same field,
wherever an object has a role.  `Json.Edit` is one change to such an object that
should not matter: a permutation of its members, one more member that is not
looked at, or an edit inside a member or an element that has a role.

* `Json.Edit.fieldsDistinct_iff`: an edit neither makes nor removes a repetition.
-/

namespace Scaffold

open Decode (Holds)

/-! ## Roles -/

/-- What a JSON value is read as. -/
inductive Role where
  | node
  | nodes
  | location
  | position
  | value
  deriving DecidableEq, Repr

/-- The role of the value in a slot. -/
def Slot.role : Slot → Role
  | .child | .only _ => .node
  | .children | .listOf _ => .nodes
  | .value => .value

/-- The fields with a text or a flag that a kind uses. -/
def Kind.scalars : Kind → List Field
  | .program => [.sourceType]
  | .variableDeclaration => [.kind]
  | .literal => [.raw]
  | .identifier => [.name]
  | .binaryExpression | .logicalExpression | .assignmentExpression => [.operator]
  | .unaryExpression | .updateExpression => [.operator, .isPrefix]
  | .memberExpression => [.computed]
  | _ => []

/-- The fields that a kind uses, besides those that all kinds use. -/
def Kind.uses (kind : Kind) : List Field := kind.slots.map Prod.fst ++ kind.scalars

namespace Role

/-- Whether a key names a field of an object in a role. -/
def Names : Role → Json.Key → String → Prop
  | .node, key, name => (Field.ofKey? key.text).map Field.key = some name
  | .nodes, _, _ => False
  | .location, key, name => name ∈ ["start", "end"] ∧ key.names name = true
  | .position, key, name => name ∈ ["line", "column"] ∧ key.names name = true
  | .value, key, name => key.text = name

/-- Two keys do not name the same field. -/
def Apart (role : Role) (key key' : Json.Key) : Prop :=
  ∀ name, ¬ (role.Names key name ∧ role.Names key' name)

/-- No two keys of an object name the same field. -/
def KeysApart (role : Role) (members : List (Json.Key × Json)) : Prop :=
  (members.map Prod.fst).Pairwise role.Apart

/-- The role of the elements of an array. -/
def element? : Role → Option Role
  | .nodes => some .node
  | .value => some .value
  | _ => none

/-- The role of the value under a key of an object. -/
inductive Part (members : List (Json.Key × Json)) : Role → Json.Key → Role → Prop where
  | location {key : Json.Key} : Field.ofKey? key.text = some .loc → Part members .node key .location
  | slot {key : Json.Key} {kind : Kind} {f : Field} {slot : Slot} :
      Field.ofKey? key.text = some f → Holds members .type (.string kind.name) →
      (f, slot) ∈ kind.slots → Part members .node key slot.role
  | position {key : Json.Key} {name : String} : Role.location.Names key name →
      Part members .location key .position
  | value {key : Json.Key} : Part members .value key .value

end Role

/-! ## Distinct fields and edits -/

/-- No two keys of an object that has a role name the same field. -/
inductive Json.FieldsDistinct : Role → Json → Prop where
  | null {role : Role} : FieldsDistinct role .null
  | bool {role : Role} {b : Bool} : FieldsDistinct role (.bool b)
  | number {role : Role} {n : Numeral} : FieldsDistinct role (.number n)
  | string {role : Role} {s : String} : FieldsDistinct role (.string s)
  | array {role : Role} {elements : List Json} :
      (∀ part, role.element? = some part → ∀ j ∈ elements, FieldsDistinct part j) →
      FieldsDistinct role (.array elements)
  | object {role : Role} {members : List (Json.Key × Json)} : role.KeysApart members →
      (∀ m ∈ members, ∀ part, Role.Part members role m.1 part → FieldsDistinct part m.2) →
      FieldsDistinct role (.object members)

/-- One change to a JSON value that its role does not see.  A member is added in front. -/
inductive Json.Edit : Role → Json → Json → Prop where
  /-- The members of an object in another order. -/
  | permute {role : Role} {members members' : List (Json.Key × Json)} : members.Perm members' →
      Edit role (.object members) (.object members')
  /-- A key that names no field, with any value. -/
  | foreign {role : Role} {key : Json.Key} {j : Json} {members : List (Json.Key × Json)} :
      (∀ name, ¬ role.Names key name) → Edit role (.object members) (.object ((key, j) :: members))
  /-- A null for a field that is absent. -/
  | null {role : Role} {key : Json.Key} {members : List (Json.Key × Json)} : role ≠ .value →
      (∀ m ∈ members, role.Apart key m.1) →
      Edit role (.object members) (.object ((key, .null) :: members))
  /-- A field that is absent and that the type of the node does not use. -/
  | unused {key : Json.Key} {f : Field} {j : Json} {members : List (Json.Key × Json)} :
      Field.ofKey? key.text = some f → (∀ m ∈ members, Role.node.Apart key m.1) →
      f.shape.Describes j → f ≠ .type → f ≠ .loc →
      (∀ kind : Kind, Holds members .type (.string kind.name) → f ∉ kind.uses) →
      Edit .node (.object members) (.object ((key, j) :: members))
  /-- An edit of a member. -/
  | member {role part : Role} {key : Json.Key} {j j' : Json}
      {before after : List (Json.Key × Json)} :
      Role.Part (before ++ (key, j) :: after) role key part → Edit part j j' →
      Edit role (.object (before ++ (key, j) :: after)) (.object (before ++ (key, j') :: after))
  /-- An edit of an element. -/
  | element {role part : Role} {j j' : Json} {before after : List Json} :
      role.element? = some part → Edit part j j' →
      Edit role (.array (before ++ j :: after)) (.array (before ++ j' :: after))

/-! ## Keys that are apart -/

namespace Role

theorem Apart.symm {role : Role} {key key' : Json.Key} (h : role.Apart key key') :
    role.Apart key' key :=
  fun name hname => h name hname.symm

theorem keysApart_cons {role : Role} {key : Json.Key} {j : Json}
    {members : List (Json.Key × Json)} :
    role.KeysApart ((key, j) :: members)
      ↔ (∀ m ∈ members, role.Apart key m.1) ∧ role.KeysApart members := by
  rw [KeysApart, List.map_cons, List.pairwise_cons, List.forall_mem_map, KeysApart]

theorem keysApart_perm {role : Role} {members members' : List (Json.Key × Json)}
    (h : members.Perm members') : role.KeysApart members ↔ role.KeysApart members' :=
  (h.map Prod.fst).pairwise_iff Apart.symm

/-- The fields of a node object are different. -/
theorem KeysApart.nodup_entries {members : List (Json.Key × Json)}
    (h : Role.node.KeysApart members) : ((Decode.entries members).map Prod.fst).Nodup := by
  induction members with
  | nil => exact List.nodup_nil
  | cons m members ih =>
    obtain ⟨key, j⟩ := m
    obtain ⟨hkey, hmembers⟩ := keysApart_cons.1 h
    rw [Decode.entries]
    cases hf : Field.ofKey? key.text with
    | none => exact ih hmembers
    | some f =>
      refine List.nodup_cons.2 ⟨?_, ih hmembers⟩
      intro hmem
      obtain ⟨⟨g, r⟩, hr, rfl⟩ := List.mem_map.1 hmem
      obtain ⟨j', ⟨key', hmem', hkey'⟩, -⟩ := Decode.mem_entries.1 hr
      exact hkey _ hmem' g.key ⟨by simp [Names, hf], by simp [Names, hkey']⟩

/-- A field of a node object has one value. -/
theorem KeysApart.holds_unique {members : List (Json.Key × Json)} (h : Role.node.KeysApart members)
    {f : Field} {j j' : Json} (hj : Holds members f j) (hj' : Holds members f j') : j = j' := by
  have hunique := Decode.reading_unique h.nodup_entries (Decode.mem_entries.2 ⟨j', hj', rfl⟩)
    (Decode.mem_entries.2 ⟨j, hj, rfl⟩)
  exact congrArg Decode.Reading.value hunique

/-- Only keys that name a field have a role. -/
theorem Part.names {members : List (Json.Key × Json)} {role part : Role} {key : Json.Key}
    (h : Part members role key part) : ∃ name, role.Names key name := by
  cases h with
  | location hkey => exact ⟨_, by rw [Names, hkey]; rfl⟩
  | slot hkey => exact ⟨_, by rw [Names, hkey]; rfl⟩
  | position hname => exact ⟨_, hname⟩
  | value => exact ⟨_, rfl⟩

/-- The roles in a node object depend on its type only. -/
theorem Part.congr {members members' : List (Json.Key × Json)} {role part : Role}
    {key : Json.Key} (h : role = .node → ∀ kind : Kind,
      Holds members .type (.string kind.name) → Holds members' .type (.string kind.name))
    (hpart : Part members role key part) : Part members' role key part := by
  cases hpart with
  | location hkey => exact .location hkey
  | slot hkey htype hslot => exact .slot hkey (h rfl _ htype) hslot
  | position hname => exact .position hname
  | value => exact .value

end Role

theorem Kind.nodup_slots (kind : Kind) : (kind.slots.map Prod.fst).Nodup := by
  cases kind <;> decide

theorem Kind.loc_notMem_slots (kind : Kind) (slot : Slot) : (.loc, slot) ∉ kind.slots := by
  cases kind <;> simp [slots]

/-- A slot of a kind is fixed by its field. -/
theorem Kind.slot_unique {kind : Kind} {f : Field} {slot slot' : Slot}
    (h : (f, slot) ∈ kind.slots) (h' : (f, slot') ∈ kind.slots) : slot = slot' :=
  congrArg Prod.snd (List.inj_on_of_nodup_map kind.nodup_slots h h' rfl)

/-- A key has at most one role. -/
theorem Role.Part.unique {members : List (Json.Key × Json)} {role part part' : Role}
    {key : Json.Key} (hkeys : role.KeysApart members) (h : Part members role key part)
    (h' : Part members role key part') : part = part' := by
  cases h with
  | location hkey =>
    cases h' with
    | location => rfl
    | slot hkey' _ hslot =>
      cases hkey.symm.trans hkey'
      exact absurd hslot (Kind.loc_notMem_slots _ _)
  | slot hkey htype hslot =>
    cases h' with
    | location hkey' =>
      cases hkey.symm.trans hkey'
      exact absurd hslot (Kind.loc_notMem_slots _ _)
    | slot hkey' htype' hslot' =>
      cases hkey.symm.trans hkey'
      have hname := Json.string.inj (hkeys.holds_unique htype htype')
      rw [Kind.name_injective hname] at hslot
      rw [Kind.slot_unique hslot hslot']
  | position => cases h'; rfl
  | value => cases h'; rfl

/-! ## Edits keep fields distinct -/

theorem Json.fieldsDistinct_object {role : Role} {members : List (Json.Key × Json)} :
    (Json.object members).FieldsDistinct role ↔ role.KeysApart members ∧
      ∀ m ∈ members, ∀ part, Role.Part members role m.1 part → m.2.FieldsDistinct part := by
  constructor
  · intro h
    cases h with
    | object hkeys hparts => exact ⟨hkeys, hparts⟩
  · rintro ⟨hkeys, hparts⟩
    exact .object hkeys hparts

theorem Json.fieldsDistinct_array {role : Role} {elements : List Json} :
    (Json.array elements).FieldsDistinct role ↔
      ∀ part, role.element? = some part → ∀ j ∈ elements, j.FieldsDistinct part := by
  constructor
  · intro h
    cases h with
    | array helements => exact helements
  · exact .array

namespace Json

/-- A value with a role in an object of distinct fields has distinct fields. -/
theorem FieldsDistinct.part {role part : Role} {key : Json.Key} {j : Json}
    {members : List (Json.Key × Json)} (h : (Json.object members).FieldsDistinct role)
    (hmem : (key, j) ∈ members) (hpart : Role.Part members role key part) :
    j.FieldsDistinct part :=
  (fieldsDistinct_object.1 h).2 (key, j) hmem part hpart

/-- Two objects or two arrays. -/
inductive Alike : Json → Json → Prop where
  | object {members members' : List (Json.Key × Json)} : Alike (.object members) (.object members')
  | array {elements elements' : List Json} : Alike (.array elements) (.array elements')

/-- An edit changes the members of an object or the elements of an array. -/
theorem Edit.alike {role : Role} {j j' : Json} (h : Edit role j j') : j.Alike j' := by
  cases h with
  | permute => exact .object
  | foreign => exact .object
  | null => exact .object
  | unused => exact .object
  | member => exact .object
  | element => exact .array

theorem Alike.ne_string {j j' : Json} (h : j.Alike j') (s : String) :
    j ≠ .string s ∧ j' ≠ .string s := by
  cases h <;> exact ⟨Json.noConfusion, Json.noConfusion⟩

/-- One more member that does not state the type leaves the type as it is. -/
theorem holds_type_cons {key : Json.Key} {j : Json} {members : List (Json.Key × Json)}
    (h : Field.ofKey? key.text = some .type → ∀ s, j ≠ .string s) (s : String) :
    Holds ((key, j) :: members) .type (.string s) ↔ Holds members .type (.string s) := by
  constructor
  · rintro ⟨key', hmem, hkey⟩
    obtain heq | hmem := List.mem_cons.1 hmem
    · cases heq
      exact absurd rfl (h hkey s)
    · exact ⟨key', hmem, hkey⟩
  · rintro ⟨key', hmem, hkey⟩
    exact ⟨key', List.mem_cons_of_mem _ hmem, hkey⟩

/-- One more member keeps fields distinct when its key is apart and its value has no repetition. -/
theorem fieldsDistinct_cons {role : Role} {key : Json.Key} {j : Json}
    {members : List (Json.Key × Json)} (hapart : ∀ m ∈ members, role.Apart key m.1)
    (htype : role = .node → Field.ofKey? key.text = some .type → ∀ s, j ≠ .string s)
    (hvalue : ∀ part, Role.Part members role key part → j.FieldsDistinct part) :
    (Json.object members).FieldsDistinct role
      ↔ (Json.object ((key, j) :: members)).FieldsDistinct role := by
  have hpart : ∀ {other part}, Role.Part ((key, j) :: members) role other part
      ↔ Role.Part members role other part :=
    ⟨.congr fun hrole kind => (holds_type_cons (htype hrole) kind.name).1,
      .congr fun hrole kind => (holds_type_cons (htype hrole) kind.name).2⟩
  simp only [fieldsDistinct_object, Role.keysApart_cons, List.forall_mem_cons, hpart]
  exact ⟨fun h => ⟨⟨hapart, h.1⟩, hvalue, h.2⟩, fun h => ⟨h.1.2, h.2.2⟩⟩

/-- A member that is edited is the type neither before nor after. -/
theorem holds_type_middle {key : Json.Key} {j : Json} {before after : List (Json.Key × Json)}
    (h : ∀ s, j ≠ .string s) (s : String) :
    Holds (before ++ (key, j) :: after) .type (.string s)
      ↔ Holds (before ++ after) .type (.string s) := by
  simp only [Holds, List.mem_append, List.mem_cons]
  constructor
  · rintro ⟨key', hmem | heq | hmem, hkey⟩
    · exact ⟨key', .inl hmem, hkey⟩
    · cases heq
      exact absurd rfl (h s)
    · exact ⟨key', .inr hmem, hkey⟩
  · rintro ⟨key', hmem | hmem, hkey⟩
    · exact ⟨key', .inl hmem, hkey⟩
    · exact ⟨key', .inr (.inr hmem), hkey⟩

/-- Replacing the value of a member keeps fields distinct when the new value has no repetition. -/
theorem FieldsDistinct.replace {role part : Role} {key : Json.Key} {j j' : Json}
    {before after : List (Json.Key × Json)} (hj : ∀ s, j ≠ .string s) (hj' : ∀ s, j' ≠ .string s)
    (hpart : Role.Part (before ++ (key, j) :: after) role key part)
    (h : (Json.object (before ++ (key, j) :: after)).FieldsDistinct role)
    (hvalue : j'.FieldsDistinct part) :
    (Json.object (before ++ (key, j') :: after)).FieldsDistinct role := by
  obtain ⟨hkeys, hparts⟩ := fieldsDistinct_object.1 h
  have hkeys' : role.KeysApart (before ++ (key, j') :: after) := by
    rw [Role.KeysApart] at hkeys ⊢
    simpa using hkeys
  have hback : ∀ {other p}, Role.Part (before ++ (key, j') :: after) role other p →
      Role.Part (before ++ (key, j) :: after) role other p :=
    .congr fun _ kind h =>
      (holds_type_middle hj kind.name).2 ((holds_type_middle hj' kind.name).1 h)
  refine .object hkeys' fun m hm p hp => ?_
  obtain hm | hm := List.mem_append.1 hm
  · exact hparts m (List.mem_append_left _ hm) p (hback hp)
  obtain rfl | hm := List.mem_cons.1 hm
  · -- The role that the value has after the edit is the one it had before.
    rw [Role.Part.unique hkeys (hback hp) hpart]
    exact hvalue
  · exact hparts m (List.mem_append_right _ (List.mem_cons_of_mem _ hm)) p (hback hp)

/-- An edit neither makes nor removes a repetition. -/
theorem Edit.fieldsDistinct_iff {role : Role} {j j' : Json} (h : Edit role j j') :
    j.FieldsDistinct role ↔ j'.FieldsDistinct role := by
  induction h with
  | @permute role members members' hperm =>
    have hpart : ∀ {key part}, Role.Part members role key part
        ↔ Role.Part members' role key part :=
      ⟨.congr fun _ _ ⟨key, hmem, hkey⟩ => ⟨key, hperm.mem_iff.1 hmem, hkey⟩,
        .congr fun _ _ ⟨key, hmem, hkey⟩ => ⟨key, hperm.mem_iff.2 hmem, hkey⟩⟩
    simp only [fieldsDistinct_object, Role.keysApart_perm hperm, hperm.mem_iff, hpart]
  | foreign hkey =>
    refine fieldsDistinct_cons (fun m _ name hname => hkey name hname.1) ?_ ?_
    · rintro rfl htype
      exact absurd (by rw [Role.Names, htype]; rfl) (hkey _)
    · intro part hpart
      obtain ⟨name, hname⟩ := hpart.names
      exact absurd hname (hkey name)
  | null _ hapart =>
    exact fieldsDistinct_cons hapart (fun _ _ _ => Json.noConfusion) fun _ _ => .null
  | unused hkey hapart _ htype hloc hunused =>
    refine fieldsDistinct_cons hapart (fun _ h => ?_) fun part hpart => ?_
    · cases hkey.symm.trans h
      exact absurd rfl htype
    · cases hpart with
      | location h =>
        cases hkey.symm.trans h
        exact absurd rfl hloc
      | slot h hkind hslot =>
        cases hkey.symm.trans h
        exact absurd (List.mem_append_left _ (List.mem_map_of_mem hslot)) (hunused _ hkind)
  | @member role part key j j' before after hpart hedit ih =>
    have hj := fun s => (hedit.alike.ne_string s).1
    have hj' := fun s => (hedit.alike.ne_string s).2
    have hpart' : Role.Part (before ++ (key, j') :: after) role key part :=
      hpart.congr fun _ kind h =>
        (holds_type_middle hj' kind.name).2 ((holds_type_middle hj kind.name).1 h)
    constructor
    · intro h
      exact h.replace hj hj' hpart (ih.1 (h.part (by simp) hpart))
    · intro h
      exact h.replace hj' hj hpart' (ih.2 (h.part (by simp) hpart'))
  | element hpart hedit ih =>
    simp only [fieldsDistinct_array, List.forall_mem_append, List.forall_mem_cons]
    refine forall_congr' fun p => imp_congr_right fun hp => ?_
    cases hpart.symm.trans hp
    rw [ih]

end Json

end Scaffold
