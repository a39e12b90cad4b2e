import Scaffold.Proofs.Json.Writer
import Scaffold.Proofs.Tree.Shape

/-!
# Encoding literal values

`Value.IsJson` singles out the literal values that JSON has: the numbers are
finite doubles, and the members of an object stand in the order of their keys.
`Value.Encodes` relates such a value to the JSON values that stand for it, and
they differ only in how they write numbers and keys.

* `Value.ofJson?_encodes`: an encoding denotes its value.
* `Value.isJson_ofJson?`: what a JSON value denotes is one that JSON has.
* `Value.exists_encodes`: every value that JSON has can be written.
-/

namespace Scaffold.Value

/-- The values that JSON has. -/
inductive IsJson : Value → Prop where
  | null : IsJson .null
  | bool {b : Bool} : IsJson (.bool b)
  | number {negative : Bool} {mantissa : Nat} {exponent : Int} :
      Binary.Format.double.Canonical mantissa exponent →
      IsJson (.number .double (.finite negative mantissa exponent))
  | string {s : String} : IsJson (.string s)
  | array {vs : List Value} : (∀ v ∈ vs, IsJson v) → IsJson (.array vs)
  | object {ms : List (String × Value)} : (ms.map Prod.fst).Pairwise (· < ·) →
      (∀ m ∈ ms, IsJson m.2) → IsJson (.object ms)

mutual

/-- A JSON value that stands for a literal value. -/
inductive Encodes : Value → Json → Prop where
  | null : Encodes .null .null
  | bool {b : Bool} : Encodes (.bool b) (.bool b)
  | number {b : Binary} {n : Numeral} : Binary.Format.double.ofNumeral? n = some b →
      Encodes (.number .double b) (.number n)
  | string {s : String} : Encodes (.string s) (.string s)
  | array {vs : List Value} {js : List Json} : EncodesElements vs js →
      Encodes (.array vs) (.array js)
  | object {ms : List (String × Value)} {js : List (Json.Key × Json)} : EncodesMembers ms js →
      Encodes (.object ms) (.object js)

/-- The elements of an array, one by one. -/
inductive EncodesElements : List Value → List Json → Prop where
  | nil : EncodesElements [] []
  | cons {v : Value} {j : Json} {vs : List Value} {js : List Json} : Encodes v j →
      EncodesElements vs js → EncodesElements (v :: vs) (j :: js)

/-- The members of an object, one by one. -/
inductive EncodesMembers : List (String × Value) → List (Json.Key × Json) → Prop where
  | nil : EncodesMembers [] []
  | cons {key : Json.Key} {v : Value} {j : Json} {ms : List (String × Value)}
      {js : List (Json.Key × Json)} : Encodes v j → EncodesMembers ms js →
      EncodesMembers ((key.text, v) :: ms) ((key, j) :: js)

end

/-! ## Members in order -/

theorem setMember_append {key : String} {done : List (String × Value)}
    (h : ∀ m ∈ done, m.1 < key) (v : Value) :
    setMember key v done = done ++ [(key, v)] := by
  induction done with
  | nil => rfl
  | cons m done ih =>
    rw [List.forall_mem_cons] at h
    rw [setMember, if_neg (lt_asymm h.1), if_neg h.1.ne', ih h.2, List.cons_append]

theorem mem_setMember {key : String} {v : Value} {ms : List (String × Value)}
    {m : String × Value} (h : m ∈ setMember key v ms) : m = (key, v) ∨ m ∈ ms := by
  induction ms with
  | nil => exact .inl (List.mem_singleton.1 h)
  | cons m' ms ih =>
    obtain ⟨k, w⟩ := m'
    rw [setMember] at h
    split_ifs at h with hlt heq
    · exact List.mem_cons.1 h
    · exact (List.mem_cons.1 h).imp_right (List.mem_cons_of_mem _)
    · rcases List.mem_cons.1 h with rfl | h
      · exact .inr List.mem_cons_self
      · exact (ih h).imp_right (List.mem_cons_of_mem _)

theorem pairwise_setMember {key : String} {v : Value} {ms : List (String × Value)}
    (h : (ms.map Prod.fst).Pairwise (· < ·)) :
    ((setMember key v ms).map Prod.fst).Pairwise (· < ·) := by
  induction ms with
  | nil => exact List.pairwise_singleton _ _
  | cons m ms ih =>
    obtain ⟨k, w⟩ := m
    rw [List.map_cons, List.pairwise_cons, List.forall_mem_map] at h
    rw [setMember]
    split_ifs with hlt heq
    · refine List.pairwise_cons.2 ⟨?_, List.pairwise_cons.2 ⟨List.forall_mem_map.2 h.1, h.2⟩⟩
      rw [List.forall_mem_map, List.forall_mem_cons]
      exact ⟨hlt, fun m hm => hlt.trans (h.1 m hm)⟩
    · rw [heq]
      exact List.pairwise_cons.2 ⟨List.forall_mem_map.2 h.1, h.2⟩
    · refine List.pairwise_cons.2 ⟨List.forall_mem_map.2 fun m hm => ?_, ih h.2⟩
      rcases mem_setMember hm with rfl | hm
      · exact lt_of_le_of_ne (not_lt.1 hlt) (Ne.symm heq)
      · exact h.1 m hm

/-! ## Encodings denote their values -/

mutual

theorem ofJson?_encodes : ∀ {v : Value} {j : Json}, Encodes v j → v.IsJson → ofJson? j = some v
  | _, _, .null, _ | _, _, .bool, _ | _, _, .string, _ => rfl
  | _, _, .number hn, _ => by
    rw [ofJson?, hn]
    rfl
  | _, _, .array hjs, .array hvs => by
    rw [ofJson?, ofElements?_encodes hjs hvs]
    rfl
  | _, _, .object hjs, .object hkeys hms => by
    rw [ofJson?, ofMembers?_encodes [] hjs hkeys hms]
    rfl

theorem ofElements?_encodes : ∀ {vs : List Value} {js : List Json}, EncodesElements vs js →
    (∀ v ∈ vs, v.IsJson) → ofElements? js = some vs
  | _, _, .nil, _ => rfl
  | _, _, .cons hj hjs, hvs => by
    rw [List.forall_mem_cons] at hvs
    rw [ofElements?, ofJson?_encodes hj hvs.1, ofElements?_encodes hjs hvs.2]
    rfl

/-- Members in the order of their keys are set one after the other. -/
theorem ofMembers?_encodes : ∀ (done : List (String × Value)) {ms : List (String × Value)}
    {js : List (Json.Key × Json)}, EncodesMembers ms js →
    ((done ++ ms).map Prod.fst).Pairwise (· < ·) → (∀ m ∈ ms, m.2.IsJson) →
    ofMembers? done js = some (done ++ ms)
  | done, _, _, .nil, _, _ => by
    rw [ofMembers?, List.append_nil]
  | done, _, _, @EncodesMembers.cons key v j ms js hj hjs, hkeys, hms => by
    rw [List.forall_mem_cons] at hms
    have hbefore : ∀ m ∈ done, m.1 < key.text := by
      rw [List.map_append, List.pairwise_append] at hkeys
      exact fun m hm => hkeys.2.2 m.1 (List.mem_map_of_mem hm) key.text List.mem_cons_self
    rw [List.append_cons] at hkeys ⊢
    rw [ofMembers?, ofJson?_encodes hj hms.1, Option.bind_eq_bind, Option.bind_some,
      setMember_append hbefore]
    exact ofMembers?_encodes (done ++ [(key.text, v)]) hjs hkeys hms.2

end

/-! ## Values from JSON -/

mutual

theorem isJson_ofJson? : ∀ {j : Json} {v : Value}, ofJson? j = some v → v.IsJson
  | .null, _, rfl => .null
  | .bool _, _, rfl => .bool
  | .string _, _, rfl => .string
  | .number n, v, h => by
    rw [ofJson?, Option.map_eq_some_iff] at h
    obtain ⟨b, hb, rfl⟩ := h
    obtain ⟨mantissa, exponent, rfl, hcanonical⟩ := Binary.Format.ofNumeral?_canonical hb
    exact .number hcanonical
  | .array js, v, h => by
    rw [ofJson?, Option.map_eq_some_iff] at h
    obtain ⟨vs, hvs, rfl⟩ := h
    exact .array (isJson_ofElements? hvs)
  | .object js, v, h => by
    rw [ofJson?, Option.map_eq_some_iff] at h
    obtain ⟨ms, hms, rfl⟩ := h
    obtain ⟨hkeys, hvalues⟩ := isJson_ofMembers? hms List.Pairwise.nil nofun
    exact .object hkeys hvalues

theorem isJson_ofElements? : ∀ {js : List Json} {vs : List Value}, ofElements? js = some vs →
    ∀ v ∈ vs, v.IsJson
  | [], _, rfl => nofun
  | j :: js, vs, h => by
    simp only [ofElements?, Option.bind_eq_bind, Option.bind_eq_some_iff, Option.some.injEq] at h
    obtain ⟨v, hv, vs, hvs, rfl⟩ := h
    exact List.forall_mem_cons.2 ⟨isJson_ofJson? hv, isJson_ofElements? hvs⟩

/-- Setting members keeps them in the order of their keys. -/
theorem isJson_ofMembers? : ∀ {js : List (Json.Key × Json)} {done ms : List (String × Value)},
    ofMembers? done js = some ms → (done.map Prod.fst).Pairwise (· < ·) →
    (∀ m ∈ done, m.2.IsJson) → (ms.map Prod.fst).Pairwise (· < ·) ∧ ∀ m ∈ ms, m.2.IsJson
  | [], _, _, rfl, hkeys, hdone => ⟨hkeys, hdone⟩
  | (key, j) :: js, done, ms, h, hkeys, hdone => by
    simp only [ofMembers?, Option.bind_eq_bind, Option.bind_eq_some_iff] at h
    obtain ⟨v, hv, h⟩ := h
    refine isJson_ofMembers? h (pairwise_setMember hkeys) fun m hm => ?_
    rcases mem_setMember hm with rfl | hm
    · exact isJson_ofJson? hv
    · exact hdone m hm

end

/-! ## Every value can be written -/

theorem exists_encodesElements {vs : List Value}
    (h : ∀ v ∈ vs, ∃ j, Encodes v j ∧ j.Writable) :
    ∃ js, EncodesElements vs js ∧ ∀ j ∈ js, j.Writable := by
  induction vs with
  | nil => exact ⟨[], .nil, nofun⟩
  | cons v vs ih =>
    rw [List.forall_mem_cons] at h
    obtain ⟨⟨j, hj, hwj⟩, hvs⟩ := h
    obtain ⟨js, hjs, hwjs⟩ := ih hvs
    exact ⟨j :: js, .cons hj hjs, List.forall_mem_cons.2 ⟨hwj, hwjs⟩⟩

theorem exists_encodesMembers {ms : List (String × Value)}
    (h : ∀ m ∈ ms, ∃ j, Encodes m.2 j ∧ j.Writable) :
    ∃ js, EncodesMembers ms js ∧ (∀ m ∈ js, m.1.surplus = Json.quotedSurplus m.1.text) ∧
      ∀ m ∈ js, m.2.Writable := by
  induction ms with
  | nil => exact ⟨[], .nil, nofun, nofun⟩
  | cons m ms ih =>
    obtain ⟨k, v⟩ := m
    rw [List.forall_mem_cons] at h
    obtain ⟨⟨j, hj, hwj⟩, hms⟩ := h
    obtain ⟨js, hjs, hkeys, hwjs⟩ := ih hms
    exact ⟨(.written k, j) :: js, @EncodesMembers.cons (.written k) v j ms js hj hjs,
      List.forall_mem_cons.2 ⟨rfl, hkeys⟩, List.forall_mem_cons.2 ⟨hwj, hwjs⟩⟩

theorem exists_encodes {v : Value} (h : v.IsJson) : ∃ j, Encodes v j ∧ j.Writable := by
  induction h with
  | null => exact ⟨_, .null, .null⟩
  | bool => exact ⟨_, .bool, .bool⟩
  | string => exact ⟨_, .string, .string⟩
  | @number negative _ _ hcanonical =>
    obtain ⟨n, hplain, hn⟩ := Binary.Format.exists_numeral negative hcanonical
    exact ⟨_, .number hn, .number fun h => absurd h (by rw [hplain]; decide)⟩
  | array _ ih =>
    obtain ⟨js, hjs, hw⟩ := exists_encodesElements ih
    exact ⟨_, .array hjs, .array hw⟩
  | object _ _ ih =>
    obtain ⟨js, hjs, hkeys, hw⟩ := exists_encodesMembers ih
    exact ⟨_, .object hjs, .object hkeys hw⟩

end Scaffold.Value
