import Mathlib.Data.List.Perm.Basic
import Scaffold.Proofs.Tree.Edit
import Scaffold.Proofs.Tree.Literal

/-!
# Members in any order

Spans, positions and literal values are set member by member.  When no two keys
name the same field, two members that follow each other can trade places
(`Role.Trades`), so the order of the members does not matter (`foldlM_perm`).

The same holds for what is read off the entries of a node object, where every
field occurs once (`foldl_perm`, `last?_perm`).
-/

namespace Scaffold

open Decode

/-! ## Setting members one after the other -/

/-- Members with keys that are apart can be set in either order. -/
def Role.Trades {σ : Type} (role : Role) (set : σ → Json.Key × Json → Option σ) : Prop :=
  ∀ s m m', role.Apart m.1 m'.1 → (set s m).bind (set · m') = (set s m').bind (set · m)

theorem foldlM_perm {σ : Type} {role : Role} {set : σ → Json.Key × Json → Option σ}
    (htrades : role.Trades set) {members members' : List (Json.Key × Json)}
    (hperm : members.Perm members') (hkeys : role.KeysApart members) (s : σ) :
    members.foldlM set s = members'.foldlM set s := by
  induction hperm generalizing s with
  | nil => rfl
  | cons m _ ih =>
    have hmembers := (Role.keysApart_cons.1 hkeys).2
    simp only [List.foldlM_cons, ih hmembers]
  | swap m m' members =>
    have hapart := (Role.keysApart_cons.1 hkeys).1 m List.mem_cons_self
    have hswap := congrArg (·.bind fun s => members.foldlM set s) (htrades s m' m hapart)
    simpa only [List.foldlM_cons, Option.bind_eq_bind, Option.bind_assoc] using hswap
  | trans hfirst _ ih ih' => rw [ih hkeys, ih' ((Role.keysApart_perm hfirst).1 hkeys)]

/-- A member is replaced by one that sets the same. -/
theorem foldlM_replace {σ : Type} {set : σ → Json.Key × Json → Option σ} {m m' : Json.Key × Json}
    (h : ∀ s, set s m = set s m') (before after : List (Json.Key × Json)) (s : σ) :
    (before ++ m :: after).foldlM set s = (before ++ m' :: after).foldlM set s := by
  simp only [List.foldlM_append, List.foldlM_cons, h]

/-! ## Spans and positions -/

/-- What an object with two fields sets, by the field that a key names. -/
def setPair {σ : Type} (first second : String) (setFirst setSecond : σ → Json → Option σ) (s : σ)
    (m : Json.Key × Json) : Option σ :=
  if m.1.names first then setFirst s m.2
  else if m.1.names second then setSecond s m.2
  else some s

theorem trades_setPair {σ : Type} {role : Role} {first second : String}
    {setFirst setSecond : σ → Json → Option σ}
    (hnames : ∀ name ∈ [first, second], ∀ key : Json.Key, key.names name = true →
      role.Names key name)
    (htrade : ∀ s j j',
      (setFirst s j).bind (setSecond · j') = (setSecond s j').bind (setFirst · j)) :
    role.Trades (setPair first second setFirst setSecond) := by
  intro s ⟨key, j⟩ ⟨key', j'⟩ hapart
  have hfirst : ¬ (key.names first = true ∧ key'.names first = true) := fun h =>
    hapart first (h.imp (hnames first (by simp) key) (hnames first (by simp) key'))
  have hsecond : ¬ (key.names second = true ∧ key'.names second = true) := fun h =>
    hapart second (h.imp (hnames second (by simp) key) (hnames second (by simp) key'))
  simp only [setPair]
  split_ifs with h1 h2 h3 h4 h5 h6 <;> simp_all

/-- A position with a member set on it. -/
def Position.setMember? : Position → Json.Key × Json → Option Position :=
  setPair "line" "column" (fun p j => (j.coordinate? p.line).map fun line => { p with line })
    fun p j => (j.coordinate? p.column).map fun column => { p with column }

theorem Position.set?_eq_foldlM (p : Position) (members : List (Json.Key × Json)) :
    p.set? members = members.foldlM setMember? p := by
  induction members generalizing p with
  | nil => rfl
  | cons m members ih =>
    rw [List.foldlM_cons, set?_cons, setMember?, setPair]
    split_ifs
    · cases m.2.coordinate? p.line <;> simp [ih, setMember?]
    · cases m.2.coordinate? p.column <;> simp [ih, setMember?]
    · exact ih p

theorem Position.trades_setMember? : Role.position.Trades Position.setMember? := by
  refine trades_setPair (fun name hname key hkey => ⟨hname, hkey⟩) fun p j j' => ?_
  cases hline : j.coordinate? p.line <;> cases hcolumn : j'.coordinate? p.column <;>
    simp [hline, hcolumn]

/-- A span with a member set on it. -/
def Span.setMember? : Span → Json.Key × Json → Option Span :=
  setPair "start" "end" (fun s j => (j.position? s.start).map fun start => { s with start })
    fun s j => (j.position? s.stop).map fun stop => { s with stop }

theorem Span.set?_eq_foldlM (s : Span) (members : List (Json.Key × Json)) :
    s.set? members = members.foldlM setMember? s := by
  induction members generalizing s with
  | nil => rfl
  | cons m members ih =>
    rw [List.foldlM_cons, set?_cons, setMember?, setPair]
    split_ifs
    · cases m.2.position? s.start <;> simp [ih, setMember?]
    · cases m.2.position? s.stop <;> simp [ih, setMember?]
    · exact ih s

theorem Span.trades_setMember? : Role.location.Trades Span.setMember? := by
  refine trades_setPair (fun name hname key hkey => ⟨hname, hkey⟩) fun s j j' => ?_
  cases hstart : j.position? s.start <;> cases hstop : j'.position? s.stop <;>
    simp [hstart, hstop]

/-! ## Literal values -/

namespace Value

theorem setMember_cons_of_gt {key k : String} (h : k < key) (v w : Value)
    (ms : List (String × Value)) :
    setMember key v ((k, w) :: ms) = (k, w) :: setMember key v ms := by
  rw [setMember, if_neg h.not_gt, if_neg h.ne']

/-- Members with different keys can be set in either order. -/
theorem setMember_comm {key key' : String} (h : key < key') (v v' : Value)
    (ms : List (String × Value)) :
    setMember key v (setMember key' v' ms) = setMember key' v' (setMember key v ms) := by
  induction ms with
  | nil => simp [setMember, h, h.ne', h.not_gt]
  | cons m ms ih =>
    obtain ⟨k, w⟩ := m
    obtain hlt | rfl | hgt := lt_trichotomy key k
    · rw [show setMember key v ((k, w) :: ms) = (key, v) :: (k, w) :: ms from if_pos hlt,
        setMember_cons_of_gt h]
      rw [setMember]
      split_ifs with hlt' heq
      · exact if_pos h
      · exact if_pos h
      · exact if_pos hlt
    · rw [setMember_cons_of_gt h, show setMember key v ((key, w) :: ms) = (key, v) :: ms by
        simp [setMember], setMember_cons_of_gt h]
      simp [setMember]
    · rw [setMember_cons_of_gt (hgt.trans h), setMember_cons_of_gt hgt, setMember_cons_of_gt hgt,
        setMember_cons_of_gt (hgt.trans h), ih]

/-- The members of an object with one more set. -/
def addMember? (done : List (String × Value)) (m : Json.Key × Json) :
    Option (List (String × Value)) :=
  (ofJson? m.2).map fun v => setMember m.1.text v done

theorem ofMembers?_eq_foldlM (done : List (String × Value)) (members : List (Json.Key × Json)) :
    ofMembers? done members = members.foldlM addMember? done := by
  induction members generalizing done with
  | nil => rfl
  | cons m members ih =>
    rw [List.foldlM_cons, ofMembers?, addMember?]
    cases ofJson? m.2 <;> simp [ih]

theorem trades_addMember? : Role.value.Trades addMember? := by
  intro done m m' hapart
  have hne : m.1.text ≠ m'.1.text := fun h => hapart m.1.text ⟨rfl, h.symm⟩
  simp only [addMember?]
  cases ofJson? m.2 with
  | none => cases ofJson? m'.2 <;> rfl
  | some v =>
    cases ofJson? m'.2 with
    | none => rfl
    | some v' =>
      obtain hlt | hgt := lt_or_gt_of_ne hne
      · exact congrArg some (setMember_comm hlt v v' done).symm
      · exact congrArg some (setMember_comm hgt v' v done)

end Value

end Scaffold
