import Mathlib.Logic.Relation
import Scaffold.Proofs.Tree.Document
import Scaffold.Proofs.Tree.Order

/-!
# What decoding does not see

Decoding sees of a node object the shapes of its fields, its type, its span and
the fields that its kind uses.  So an edit leaves the result as it is, whether
that is a tree or a fault.

* `Decode.Agree.node_eq`: a node is fixed by what its kind uses.
* `Json.Edit.agrees`: what a value is read as in its role survives an edit.
* `Node.parse_edited`: a document is parsed the same after any number of edits.
-/

namespace Scaffold

namespace Decode

/-! ## What a kind uses -/

/-- Two lists of entries give the same for a field that is read in a role. -/
def SlotAgrees : Role → Field → Entries → Entries → Prop
  | .node, f, es, es' => child f es = child f es'
  | .nodes, f, es, es' => children f es = children f es' ∧
      (f = .body → ∀ kind, statements kind es = statements kind es')
  | .value, f, es, es' => f = .value → literal es = literal es'
  | _, _, _, _ => True

/-- Two lists of entries give the same for all that decoding a node looks at. -/
structure Agree (es es' : Entries) : Prop where
  accepts : accepts es = accepts es'
  type : text .type es = text .type es'
  span : span es = span es'
  slots : ∀ kind : Kind, kind.name = text .type es → ∀ slot ∈ kind.slots,
    SlotAgrees slot.2.role slot.1 es es'
  scalars : ∀ kind : Kind, kind.name = text .type es → ∀ f ∈ kind.scalars,
    text f es = text f es' ∧ flag f es = flag f es'

theorem nodeOf_congr {kind : Kind} {es es' : Entries} (hspan : span es = span es')
    (hslots : ∀ slot ∈ kind.slots, SlotAgrees slot.2.role slot.1 es es')
    (hscalars : ∀ f ∈ kind.scalars, text f es = text f es' ∧ flag f es = flag f es') :
    nodeOf kind es = nodeOf kind es' := by
  cases kind <;> simp_all [Kind.slots, Kind.scalars, SlotAgrees, Slot.role, nodeOf]

/-- A node is fixed by what its kind uses. -/
theorem Agree.node_eq {es es' : Entries} (h : Agree es es') : node es = node es' := by
  rw [node, node, ← h.accepts, ← h.type, ← h.span]
  cases hkind : Kind.ofName? (text .type es) with
  | none => simp only [hkind]
  | some kind =>
    have hname := Kind.ofName?_eq_some.1 hkind
    simp only [hkind, nodeOf_congr h.span (h.slots kind hname) (h.scalars kind hname)]

theorem slotAgrees_of_last? {role : Role} {f : Field} {es es' : Entries}
    (h : last? f es = last? f es') : SlotAgrees role f es es' := by
  cases role with
  | node => rw [SlotAgrees, child, h, child]
  | nodes =>
    refine ⟨by rw [children, h, children], ?_⟩
    rintro rfl kind
    rw [statements, h, statements]
  | value =>
    rintro rfl
    rw [literal, h, literal]
  | location => trivial
  | position => trivial

/-! ## Entries in any order -/

section Perm
variable {es es' : Entries} (hperm : es.Perm es') (honce : (es.map Prod.fst).Nodup)
include hperm honce

/-- A search that looks at one field only does not depend on the order. -/
theorem foldl_perm {α : Type} {f : Field} {find : α → Field × Reading → α}
    (hfind : ∀ a e, e.1 ≠ f → find a e = a) (a : α) : es.foldl find a = es'.foldl find a := by
  refine hperm.foldl_eq' (fun e he e' he' a => ?_) a
  by_cases heq : e = e'
  · rw [heq]
  · have hne : e.1 ≠ e'.1 := fun h => heq (List.inj_on_of_nodup_map honce he he' h)
    by_cases hf : e.1 = f
    · have hf' : e'.1 ≠ f := fun h => hne (hf.trans h.symm)
      rw [hfind _ e' hf', hfind a e' hf']
    · rw [hfind a e hf, hfind _ e hf]

theorem lastOf_perm {α : Type} (pick : Json → Option α) (f : Field) (start : α) :
    lastOf pick f start es = lastOf pick f start es' := by
  refine foldl_perm hperm honce (f := f) (fun a e he => ?_) start
  split
  · exact if_neg he
  · rfl

theorem span_perm : span es = span es' := by
  rw [span, span, foldl_perm hperm honce (f := .loc) fun s e he => if_neg he]

theorem last?_perm (f : Field) : last? f es = last? f es' := by
  have honce' := (hperm.map Prod.fst).nodup_iff.1 honce
  cases hlast : last? f es with
  | some r => exact (last?_once honce' (hperm.mem_iff.1 (last?_mem hlast))).symm
  | none =>
    cases hlast' : last? f es' with
    | none => rfl
    | some r =>
      obtain ⟨r', hr'⟩ := last?_isSome (hperm.mem_iff.2 (last?_mem hlast'))
      rw [hlast] at hr'
      cases hr'

/-- The order of entries does not matter when every field occurs once. -/
theorem agree_perm : Agree es es' := by
  have htext : ∀ f, text f es = text f es' := fun f => by
    rw [text_eq_lastOf, lastOf_perm hperm honce, text_eq_lastOf]
  have hflag : ∀ f, flag f es = flag f es' := fun f => by
    rw [flag_eq_lastOf, lastOf_perm hperm honce, flag_eq_lastOf]
  constructor
  case accepts => exact hperm.all_eq
  case type => exact htext .type
  case span => exact span_perm hperm honce
  case slots => exact fun kind _ slot _ => slotAgrees_of_last? (last?_perm hperm honce slot.1)
  case scalars => exact fun kind _ f _ => ⟨htext f, hflag f⟩

end Perm

/-! ## One more entry -/

theorem text_cons_of_ne {f g : Field} {r : Reading} (h : ∀ t, g = f → r.value ≠ .string t)
    (es : Entries) : text f ((g, r) :: es) = text f es := by
  rw [text_eq_lastOf, text_eq_lastOf,
    lastOf_cons_of_ne fun t hg ht => h t hg (textOf?_eq_some.1 ht)]

theorem flag_cons_of_ne {f g : Field} {r : Reading} (h : ∀ b, g = f → r.value ≠ .bool b)
    (es : Entries) : flag f ((g, r) :: es) = flag f es := by
  rw [flag_eq_lastOf, flag_eq_lastOf,
    lastOf_cons_of_ne fun b hg hb => h b hg (flagOf?_eq_some.1 hb)]

theorem last?_cons_of_ne {f g : Field} (h : g ≠ f) (r : Reading) (es : Entries) :
    last? f ((g, r) :: es) = last? f es := by
  rw [last?, if_neg h]
  cases last? f es <;> rfl

/-- A field that the kind of the node does not use does not matter, if its shape is right. -/
theorem agree_unused {f : Field} {r : Reading} {es : Entries}
    (hshape : f.shape.accepts r.value = true) (htype : f ≠ .type) (hloc : f ≠ .loc)
    (hunused : ∀ kind : Kind, kind.name = text .type es → f ∉ kind.uses) :
    Agree es ((f, r) :: es) := by
  constructor
  case accepts => simp [accepts, hshape]
  case type => exact (text_cons_of_ne (fun _ h => absurd h htype) es).symm
  case span => simp [span, hloc]
  case slots =>
    intro kind hkind slot hslot
    have hne : f ≠ slot.1 := by
      rintro rfl
      exact hunused kind hkind (List.mem_append_left _ (List.mem_map_of_mem hslot))
    exact slotAgrees_of_last? (last?_cons_of_ne hne r es).symm
  case scalars =>
    intro kind hkind g hg
    have hne : f ≠ g := by
      rintro rfl
      exact hunused kind hkind (List.mem_append_right _ hg)
    exact ⟨(text_cons_of_ne (fun _ h => absurd h hne) es).symm,
      (flag_cons_of_ne (fun _ h => absurd h hne) es).symm⟩

/-- A null for an absent field does not matter. -/
theorem agree_null {f : Field} {es : Entries} (habsent : ∀ r, (f, r) ∉ es) :
    Agree es ((f, reading .null) :: es) := by
  have hlast : last? f es = none := by
    cases h : last? f es with
    | none => rfl
    | some r => exact absurd (last?_mem h) (habsent r)
  have hnull : last? f ((f, reading .null) :: es) = some (reading .null) := by
    rw [last?, hlast, if_pos rfl]
  have htext : ∀ t, (reading .null).value ≠ .string t := fun _ => Json.noConfusion
  have hflag : ∀ b, (reading .null).value ≠ .bool b := fun _ => Json.noConfusion
  constructor
  case accepts => simp [accepts, reading, Shape.accepts]
  case type => exact (text_cons_of_ne (fun t _ => htext t) es).symm
  case span =>
    rw [span, span, List.foldl_cons]
    congr 2
    exact (ite_self none).symm
  case slots =>
    intro kind _ slot _
    by_cases hf : f = slot.1
    · subst hf
      cases slot.2.role with
      | node => rw [SlotAgrees, child, hlast, child, hnull]; rfl
      | nodes =>
        refine ⟨by rw [children, hlast, children, hnull]; rfl, fun hbody kind => ?_⟩
        rw [hbody] at hlast hnull
        rw [statements, hlast, statements, hbody, hnull]
        rfl
      | value =>
        intro hvalue
        rw [hvalue] at hlast hnull
        rw [literal, hlast, literal, hvalue, hnull]
        rfl
      | location => trivial
      | position => trivial
    · exact slotAgrees_of_last? (last?_cons_of_ne hf _ es).symm
  case scalars =>
    intro kind _ g _
    exact ⟨(text_cons_of_ne (fun t _ => htext t) es).symm,
      (flag_cons_of_ne (fun b _ => hflag b) es).symm⟩

end Decode

/-! ## What a value is read as -/

/-- The span that a JSON value sets. -/
def Json.span? (before : Span) : Json → Option Span
  | .object members => before.set? members
  | _ => none

/-- Two JSON values are read as the same in a role. -/
def Json.Agrees : Role → Json → Json → Prop
  | .node, j, j' => Decode.ofJson j = Decode.ofJson j'
  | .nodes, j, j' => Decode.ofArray j = Decode.ofArray j'
  | .location, j, j' => ∀ s, j.span? s = j'.span? s
  | .position, j, j' => ∀ p, j.position? p = j'.position? p
  | .value, j, j' => Value.ofJson? j = Value.ofJson? j'

namespace Decode

theorem last?_middle {f : Field} {r : Reading} {before after : Entries}
    (h : ∀ r, (f, r) ∉ after) : last? f (before ++ (f, r) :: after) = some r := by
  induction before with
  | nil =>
    have hlast : last? f after = none := by
      cases hlast : last? f after with
      | none => rfl
      | some r => exact absurd (last?_mem hlast) (h r)
    rw [List.nil_append, last?, hlast, if_pos rfl]
  | cons e before ih =>
    rw [List.cons_append, last?, ih]

theorem last?_middle_of_ne {f g : Field} (h : g ≠ f) (r : Reading) (before after : Entries) :
    last? f (before ++ (g, r) :: after) = last? f (before ++ after) := by
  induction before with
  | nil => exact last?_cons_of_ne h r after
  | cons e before ih => rw [List.cons_append, List.cons_append, last?, last?, ih]

/-- A value that is read as the same in its slot gives the same for the slot. -/
theorem slotAgrees_middle {role : Role} {f : Field} {j j' : Json} (halike : j.Alike j')
    (hagrees : j.Agrees role j') {before after : Entries} (h : ∀ r, (f, r) ∉ after) :
    SlotAgrees role f (before ++ (f, reading j) :: after)
      (before ++ (f, reading j') :: after) := by
  have hlast : ∀ j, last? f (before ++ (f, reading j) :: after) = some (reading j) := fun j =>
    last?_middle h
  cases role with
  | node =>
    rw [SlotAgrees, child, hlast, child, hlast]
    exact hagrees
  | nodes =>
    refine ⟨by rw [children, hlast, children, hlast]; exact hagrees, ?_⟩
    rintro rfl kind
    rw [statements, hlast, statements, hlast]
    cases halike with
    | object => rfl
    | array => exact hagrees
  | value =>
    rintro rfl
    rw [literal, hlast, literal, hlast]
    simp only [reading, show Value.ofJson? j = Value.ofJson? j' from hagrees]
  | location => trivial
  | position => trivial

theorem accepts_alike {f : Field} {j j' : Json} (halike : j.Alike j')
    (hloc : f = .loc → j.Agrees .location j') : f.shape.accepts j = f.shape.accepts j' := by
  by_cases hf : f = .loc
  · subst hf
    cases halike with
    | object => exact congrArg Option.isSome (hloc rfl {})
    | array => rfl
  · cases halike <;> cases f <;> first | rfl | exact absurd rfl hf

/-- A value that is read as the same does not matter. -/
theorem agree_replace {f : Field} {j j' : Json} {before after : Entries} (halike : j.Alike j')
    (honce : ((before ++ (f, reading j) :: after).map Prod.fst).Nodup)
    (hloc : f = .loc → j.Agrees .location j')
    (hslots : ∀ kind : Kind, kind.name = text .type (before ++ (f, reading j) :: after) →
      ∀ slot, (f, slot) ∈ kind.slots → j.Agrees slot.role j') :
    Agree (before ++ (f, reading j) :: after) (before ++ (f, reading j') :: after) := by
  -- The field occurs once, so the value that is replaced is the last reading of its field.
  have hafter : ∀ r, (f, r) ∉ after := by
    intro r hr
    rw [List.map_append, List.map_cons, List.nodup_append] at honce
    exact (List.nodup_cons.1 honce.2.1).1 (List.mem_map.2 ⟨_, hr, rfl⟩)
  have htext : ∀ g, text g (before ++ (f, reading j) :: after)
      = text g (before ++ (f, reading j') :: after) := by
    intro g
    simp only [text, List.foldl_append, List.foldl_cons]
    congr 1
    cases halike <;> rfl
  have hflag : ∀ g, flag g (before ++ (f, reading j) :: after)
      = flag g (before ++ (f, reading j') :: after) := by
    intro g
    simp only [flag, List.foldl_append, List.foldl_cons]
    congr 1
    cases halike <;> rfl
  constructor
  case accepts => simp [accepts, reading, accepts_alike halike hloc]
  case type => exact htext .type
  case span =>
    simp only [span, List.foldl_append, List.foldl_cons]
    congr 2
    split_ifs with hf
    · cases halike with
      | object => exact hloc hf _
      | array => rfl
    · rfl
  case slots =>
    intro kind hkind slot hslot
    by_cases hf : f = slot.1
    · subst hf
      exact slotAgrees_middle halike (hslots kind hkind slot.2 hslot) hafter
    · refine slotAgrees_of_last? ?_
      rw [last?_middle_of_ne hf, last?_middle_of_ne hf]
  case scalars => exact fun kind _ g _ => ⟨htext g, hflag g⟩

end Decode

/-! ## Edits -/

/-- The type of a node object that is a known one stands in it. -/
theorem Decode.holds_type {members : List (Json.Key × Json)} {kind : Kind}
    (h : kind.name = text .type (entries members)) :
    Holds members .type (.string kind.name) := by
  have hne : text .type (entries members) ≠ "" := by
    rw [← h]
    cases kind <;> decide
  obtain ⟨r, hr, hvalue⟩ := mem_of_text_ne hne
  obtain ⟨j, hj, rfl⟩ := mem_entries.1 hr
  rw [h, ← hvalue]
  exact hj

namespace Json

open Decode

theorem ofJson_congr {members members' : List (Json.Key × Json)}
    (h : Agree (entries members) (entries members')) :
    (Json.object members).Agrees .node (.object members') := by
  rw [Agrees, ofJson, ofJson, h.node_eq]

/-- The order of the members of an object does not matter. -/
theorem agrees_permute {role : Role} {members members' : List (Json.Key × Json)}
    (hperm : members.Perm members') (hkeys : role.KeysApart members) :
    (Json.object members).Agrees role (.object members') := by
  cases role with
  | node =>
    refine ofJson_congr (agree_perm ?_ hkeys.nodup_entries)
    rw [entries_eq, entries_eq]
    exact hperm.filterMap _
  | nodes => rfl
  | location =>
    intro s
    change s.set? members = s.set? members'
    rw [Span.set?_eq_foldlM, Span.set?_eq_foldlM, foldlM_perm Span.trades_setMember? hperm hkeys]
  | position =>
    intro p
    change p.set? members = p.set? members'
    rw [Position.set?_eq_foldlM, Position.set?_eq_foldlM,
      foldlM_perm Position.trades_setMember? hperm hkeys]
  | value =>
    rw [Agrees, Value.ofJson?, Value.ofJson?, Value.ofMembers?_eq_foldlM,
      Value.ofMembers?_eq_foldlM, foldlM_perm Value.trades_addMember? hperm hkeys]

theorem span_skip {key : Json.Key} {j : Json}
    (h : ∀ name, Role.location.Names key name → j = .null) (s : Span)
    (members : List (Json.Key × Json)) : s.set? ((key, j) :: members) = s.set? members := by
  rw [Span.set?_cons]
  split_ifs with hstart hstop
  · rw [h "start" ⟨by simp, hstart⟩]
    rfl
  · rw [h "end" ⟨by simp, hstop⟩]
    rfl
  · rfl

theorem position_skip {key : Json.Key} {j : Json}
    (h : ∀ name, Role.position.Names key name → j = .null) (p : Position)
    (members : List (Json.Key × Json)) : p.set? ((key, j) :: members) = p.set? members := by
  rw [Position.set?_cons]
  split_ifs with hline hcolumn
  · rw [h "line" ⟨by simp, hline⟩]
    rfl
  · rw [h "column" ⟨by simp, hcolumn⟩]
    rfl
  · rfl

/-- A key that names no field does not matter. -/
theorem agrees_foreign {role : Role} {key : Json.Key} (hkey : ∀ name, ¬ role.Names key name)
    (j : Json) (members : List (Json.Key × Json)) :
    (Json.object members).Agrees role (.object ((key, j) :: members)) := by
  cases role with
  | node =>
    have hnone : Field.ofKey? key.text = none := by
      cases hf : Field.ofKey? key.text with
      | none => rfl
      | some f => exact absurd (by rw [Role.Names, hf]; rfl) (hkey f.key)
    rw [Agrees, ofJson, ofJson, entries, hnone]
  | nodes => rfl
  | location => exact fun s => (span_skip (fun name h => absurd h (hkey name)) s members).symm
  | position => exact fun p => (position_skip (fun name h => absurd h (hkey name)) p members).symm
  | value => exact absurd rfl (hkey key.text)

theorem entries_cons {key : Json.Key} {f : Field} (hkey : Field.ofKey? key.text = some f) (j : Json)
    (members : List (Json.Key × Json)) :
    entries ((key, j) :: members) = (f, reading j) :: entries members := by
  rw [entries, hkey, reading]

/-- A null for an absent field does not matter. -/
theorem agrees_null {role : Role} {key : Json.Key} (hrole : role ≠ .value)
    {members : List (Json.Key × Json)} (habsent : ∀ m ∈ members, role.Apart key m.1) :
    (Json.object members).Agrees role (.object ((key, .null) :: members)) := by
  cases role with
  | node =>
    cases hkey : Field.ofKey? key.text with
    | none => rw [Agrees, ofJson, ofJson, entries, hkey]
    | some f =>
      rw [Agrees, ofJson, ofJson, entries_cons hkey]
      rw [(agree_null fun r hr => ?_ : Agree _ ((f, reading .null) :: _)).node_eq]
      obtain ⟨j, ⟨key', hmem, hkey'⟩, -⟩ := mem_entries.1 hr
      exact habsent _ hmem f.key ⟨by rw [Role.Names, hkey]; rfl, by rw [Role.Names, hkey']; rfl⟩
  | nodes => rfl
  | location => exact fun s => (span_skip (fun _ _ => rfl) s members).symm
  | position => exact fun p => (position_skip (fun _ _ => rfl) p members).symm
  | value => exact absurd rfl hrole

/-- A field that the type of a node does not use does not matter. -/
theorem agrees_unused {key : Json.Key} {f : Field} {j : Json} {members : List (Json.Key × Json)}
    (hkey : Field.ofKey? key.text = some f) (hshape : f.shape.Describes j) (htype : f ≠ .type)
    (hloc : f ≠ .loc)
    (hunused : ∀ kind : Kind, Holds members .type (.string kind.name) → f ∉ kind.uses) :
    (Json.object members).Agrees .node (.object ((key, j) :: members)) := by
  refine ofJson_congr ?_
  rw [entries_cons hkey]
  refine agree_unused (Shape.accepts_iff.2 hshape) htype hloc fun kind hkind => ?_
  exact hunused kind (holds_type hkind)

/-- A member that is read as the same does not matter. -/
theorem agrees_member {role part : Role} {key : Json.Key} {j j' : Json}
    {before after : List (Json.Key × Json)} (hkeys : role.KeysApart (before ++ (key, j) :: after))
    (hpart : Role.Part (before ++ (key, j) :: after) role key part) (halike : j.Alike j')
    (hagrees : j.Agrees part j') :
    (Json.object (before ++ (key, j) :: after)).Agrees role
      (.object (before ++ (key, j') :: after)) := by
  cases role with
  | node =>
    have hsome : ∃ f, Field.ofKey? key.text = some f := by
      cases hpart with
      | location hkey => exact ⟨_, hkey⟩
      | slot hkey => exact ⟨_, hkey⟩
    obtain ⟨f, hkey⟩ := hsome
    have hentries : ∀ j, entries (before ++ (key, j) :: after)
        = entries before ++ (f, reading j) :: entries after := fun j => by
      simp only [entries_eq, List.filterMap_append, List.filterMap_cons, hkey, Option.map_some]
    have honce := hkeys.nodup_entries
    refine ofJson_congr ?_
    rw [hentries] at honce
    rw [hentries, hentries]
    refine agree_replace halike honce (fun hloc => ?_) fun kind hkind slot hslot => ?_
    · rw [hpart.unique hkeys (.location (hloc ▸ hkey))] at hagrees
      exact hagrees
    · rw [← hentries] at hkind
      rw [hpart.unique hkeys (.slot hkey (holds_type hkind) hslot)] at hagrees
      exact hagrees
  | nodes => cases hpart
  | location =>
    cases hpart with
    | position =>
      have hposition : ∀ p, j.position? p = j'.position? p := hagrees
      intro s
      change s.set? _ = s.set? _
      rw [Span.set?_eq_foldlM, Span.set?_eq_foldlM]
      refine foldlM_replace (fun s => ?_) before after s
      simp only [Span.setMember?, setPair, hposition]
  | position => cases hpart
  | value =>
    cases hpart with
    | value =>
      have hvalue : Value.ofJson? j = Value.ofJson? j' := hagrees
      rw [Agrees, Value.ofJson?, Value.ofJson?, Value.ofMembers?_eq_foldlM,
        Value.ofMembers?_eq_foldlM]
      refine congrArg _ (foldlM_replace (fun done => ?_) before after [])
      simp only [Value.addMember?, hvalue]

theorem ofElements_replace {j j' : Json} (h : ofJson j = ofJson j') (before after : List Json) :
    ofElements (before ++ j :: after) = ofElements (before ++ j' :: after) := by
  induction before with
  | nil => rw [List.nil_append, List.nil_append, ofElements, ofElements, h]
  | cons b before ih => rw [List.cons_append, List.cons_append, ofElements, ofElements, ih]

theorem valueElements_replace {j j' : Json} (h : Value.ofJson? j = Value.ofJson? j')
    (before after : List Json) :
    Value.ofElements? (before ++ j :: after) = Value.ofElements? (before ++ j' :: after) := by
  induction before with
  | nil => rw [List.nil_append, List.nil_append, Value.ofElements?, Value.ofElements?, h]
  | cons b before ih =>
    rw [List.cons_append, List.cons_append, Value.ofElements?, Value.ofElements?, ih]

/-- An element that is read as the same does not matter. -/
theorem agrees_element {role part : Role} (hpart : role.element? = some part) {j j' : Json}
    (hagrees : j.Agrees part j') (before after : List Json) :
    (Json.array (before ++ j :: after)).Agrees role (.array (before ++ j' :: after)) := by
  cases role with
  | nodes =>
    cases hpart
    exact ofElements_replace hagrees before after
  | value =>
    cases hpart
    exact congrArg (Option.map Value.array) (valueElements_replace hagrees before after)
  | _ => cases hpart

/-- A value is read as the same in its role after an edit. -/
theorem Edit.agrees {role : Role} {j j' : Json} (h : Edit role j j')
    (hdistinct : j.FieldsDistinct role) : j.Agrees role j' := by
  induction h with
  | permute hperm => exact agrees_permute hperm (fieldsDistinct_object.1 hdistinct).1
  | foreign hkey => exact agrees_foreign hkey _ _
  | null hrole habsent => exact agrees_null hrole habsent
  | unused hkey _ hshape htype hloc hunused =>
    exact agrees_unused hkey hshape htype hloc hunused
  | member hpart hedit ih =>
    have hvalue := hdistinct.part (List.mem_append_right _ List.mem_cons_self) hpart
    exact agrees_member (fieldsDistinct_object.1 hdistinct).1 hpart hedit.alike (ih hvalue)
  | element hpart hedit ih =>
    have hvalue := fieldsDistinct_array.1 hdistinct _ hpart _
      (List.mem_append_right _ List.mem_cons_self)
    exact agrees_element hpart (ih hvalue) _ _

theorem Agrees.refl (role : Role) (j : Json) : j.Agrees role j := by
  cases role <;> simp [Agrees]

theorem Agrees.symm {role : Role} {j j' : Json} (h : j.Agrees role j') : j'.Agrees role j := by
  cases role with
  | location => exact fun s => (h s).symm
  | position => exact fun p => (h p).symm
  | _ => exact Eq.symm h

theorem Agrees.trans {role : Role} {i j k : Json} (h : i.Agrees role j) (h' : j.Agrees role k) :
    i.Agrees role k := by
  cases role with
  | location => exact fun s => (h s).trans (h' s)
  | position => exact fun p => (h p).trans (h' p)
  | _ => exact Eq.trans h h'

/-- After any number of edits fields are as distinct as before, and a value is read as the same. -/
theorem agrees_of_edits {role : Role} {j j' : Json} (h : Relation.EqvGen (Edit role) j j') :
    (j.FieldsDistinct role ↔ j'.FieldsDistinct role) ∧
      (j.FieldsDistinct role → j.Agrees role j') := by
  induction h with
  | rel j j' hedit => exact ⟨hedit.fieldsDistinct_iff, hedit.agrees⟩
  | refl j => exact ⟨Iff.rfl, fun _ => .refl role j⟩
  | symm j j' _ ih => exact ⟨ih.1.symm, fun hdistinct => (ih.2 (ih.1.2 hdistinct)).symm⟩
  | trans i j k _ _ ih ih' =>
    refine ⟨ih.1.trans ih'.1, fun hdistinct => ?_⟩
    exact (ih.2 hdistinct).trans (ih'.2 (ih.1.1 hdistinct))

end Json

/-- The result of parsing does not change when a document is edited: when the members of objects
are permuted, and members that their node does not look at and nulls are added, changed or
removed.  Both documents are read, so an edit that makes one nest deeper than `Json.nestingLimit` is
left out. -/
theorem Node.parse_edited {document document' : String} {j j' : Json}
    (hread : Json.read? document = some j) (hread' : Json.read? document' = some j')
    (hdistinct : j.FieldsDistinct .node) (hedits : Relation.EqvGen (Json.Edit .node) j j') :
    Node.parse document = Node.parse document' := by
  have hagrees : Decode.ofJson j = Decode.ofJson j' := (Json.agrees_of_edits hedits).2 hdistinct
  rw [Node.parse_eq_of_read hread, Node.parse_eq_of_read hread', hagrees]

/-- A foreign key is dropped, a field that an identifier does not use and an absent span are added,
and the order is changed. -/
theorem Node.parse_edited_identifier :
    let document := "\x7b\"type\":\"ExpressionStatement\",\"start\":0,\"expression\":" ++
      "\x7b\"type\":\"Identifier\",\"name\":\"a\"\x7d\x7d"
    let document' := "\x7b\"expression\":\x7b\"left\":[],\"type\":\"Identifier\"," ++
      "\"name\":\"a\"\x7d,\"loc\":null,\"type\":\"ExpressionStatement\"\x7d"
    ∃ j j', Json.read? document = some j ∧ Json.read? document' = some j' ∧
      j.FieldsDistinct .node ∧ Relation.EqvGen (Json.Edit .node) j j' ∧
      Node.parse document = Node.parse document' := by
  intro document document'
  let inner : List (Json.Key × Json) :=
    [(⟨"type", 0⟩, .string "Identifier"), (⟨"name", 0⟩, .string "a")]
  let inner' : List (Json.Key × Json) := (⟨"left", 0⟩, .array []) :: inner
  let type : Json.Key × Json := (⟨"type", 0⟩, .string "ExpressionStatement")
  let start : Json.Key × Json := (⟨"start", 0⟩, .number ⟨false, 0, 0, true⟩)
  let loc : Json.Key × Json := (⟨"loc", 0⟩, .null)
  let expression : Json.Key := ⟨"expression", 0⟩
  have hread : Json.read? document
      = some (.object [type, start, (expression, .object inner)]) := by
    simp only [document]
    cbv
  have hread' : Json.read? document'
      = some (.object [(expression, .object inner'), loc, type]) := by
    simp only [document']
    cbv
  have happart {key key' : Json.Key} (h : (Field.ofKey? key.text).map Field.key
      ≠ (Field.ofKey? key'.text).map Field.key) : Role.node.Apart key key' :=
    fun name hname => h (hname.1.trans hname.2.symm)
  have hkeys : Role.node.KeysApart [type, start, (expression, .object inner)] := by
    have h1 : Role.node.Apart type.1 start.1 := happart (by decide)
    have h2 : Role.node.Apart type.1 expression := happart (by decide)
    have h3 : Role.node.Apart start.1 expression := happart (by decide)
    simp [Role.KeysApart, h1, h2, h3]
  have hinner : (Json.object inner).FieldsDistinct .node := by
    have h1 : Role.node.Apart ⟨"type", 0⟩ ⟨"name", 0⟩ := happart (by decide)
    refine .object (by simp [Role.KeysApart, inner, h1]) ?_
    simp only [inner, List.forall_mem_cons]
    exact ⟨fun _ _ => .string, fun _ _ => .string, List.forall_mem_nil _⟩
  have hpart {members : List (Json.Key × Json)} (hmem : type ∈ members) :
      Role.Part members .node expression .node := by
    have htype : Decode.Holds members .type (.string Kind.expressionStatement.name) :=
      ⟨_, hmem, rfl⟩
    exact .slot rfl htype (List.mem_singleton.2 rfl)
  have hdistinct :
      (Json.object [type, start, (expression, .object inner)]).FieldsDistinct .node := by
    refine .object hkeys ?_
    simp only [List.forall_mem_cons]
    refine ⟨fun _ _ => .string, fun _ _ => .number, fun part h => ?_, List.forall_mem_nil _⟩
    rw [h.unique hkeys (hpart List.mem_cons_self)]
    exact hinner
  have hedits : Relation.EqvGen (Json.Edit .node)
      (.object [type, start, (expression, .object inner)])
      (.object [(expression, .object inner'), loc, type]) := by
    have hdropped : Json.Edit .node (.object [type, (expression, .object inner)])
        (.object [start, type, (expression, .object inner)]) :=
      .foreign fun name h => by cases h
    have hswapped : Json.Edit .node (.object [type, start, (expression, .object inner)])
        (.object [start, type, (expression, .object inner)]) :=
      .permute (.swap start type _)
    have hunused : Json.Edit .node (.object inner) (.object inner') := by
      refine .unused rfl ?_ .any (by decide) (by decide) fun kind hkind => ?_
      · simp only [inner, List.forall_mem_cons]
        exact ⟨happart (by decide), happart (by decide), List.forall_mem_nil _⟩
      · obtain ⟨key, hmem, hkey⟩ := hkind
        obtain heq | hmem := List.mem_cons.1 hmem
        · have hname : kind.name = Kind.identifier.name := Json.string.inj (congrArg Prod.snd heq)
          rw [Kind.name_injective hname]
          decide
        · have hname : key = ⟨"name", 0⟩ := congrArg Prod.fst (List.mem_singleton.1 hmem)
          rw [hname] at hkey
          exact absurd hkey (by decide)
    have hmember : Json.Edit .node (.object ([type] ++ (expression, .object inner) :: []))
        (.object ([type] ++ (expression, .object inner') :: [])) :=
      .member (hpart List.mem_cons_self) hunused
    have hnull : Json.Edit .node (.object [type, (expression, .object inner')])
        (.object [loc, type, (expression, .object inner')]) := by
      refine .null (by decide) ?_
      simp only [List.forall_mem_cons]
      exact ⟨happart (by decide), happart (by decide), List.forall_mem_nil _⟩
    have hordered : Json.Edit .node (.object ([loc, type] ++ [(expression, .object inner')]))
        (.object ([(expression, .object inner')] ++ [loc, type])) :=
      .permute List.perm_append_comm
    have hshort := Relation.EqvGen.trans _ _ _ (.rel _ _ hswapped) (.symm _ _ (.rel _ _ hdropped))
    have hlong := Relation.EqvGen.trans _ _ _ (.rel _ _ hnull) (.rel _ _ hordered)
    exact .trans _ _ _ hshort (.trans _ _ _ (.rel _ _ hmember) hlong)
  exact ⟨_, _, hread, hread', hdistinct, hedits, Node.parse_edited hread hread' hdistinct hedits⟩

end Scaffold
