import Scaffold.Proofs.Number.Rounding
import Scaffold.Tree.Field

/-!
# Shapes and ranges of JSON values

What the table of fields asks of a value, said without the functions that check
it.  `Shape.Describes` says which values a shape describes, and a span is a
shape of its own: the lines and columns in it are whole numbers of at most
nineteen digits.  `Json.InRange` says which values a literal can have.

`Shape.accepts_iff` and `Value.ofJson?_isSome` tie them to the checks.
-/

namespace Scaffold

/-! ## Shapes -/

/-- A line or column: a null or a whole number of at most nineteen digits. -/
inductive Json.IsCoordinate : Json → Prop where
  | null : IsCoordinate .null
  | number {n : Numeral} : n.plain = true → n.coefficient < 10 ^ 19 → IsCoordinate (.number n)

/-- A start or end: a null, or an object whose lines and columns are coordinates. -/
inductive Json.IsPosition : Json → Prop where
  | null : IsPosition .null
  | object {members : List (Json.Key × Json)} :
      (∀ m ∈ members, m.1.names "line" ∨ m.1.names "column" → IsCoordinate m.2) →
      IsPosition (.object members)

/-- The JSON values that a shape describes. -/
inductive Shape.Describes : Shape → Json → Prop where
  | null {shape : Shape} : Describes shape .null
  | text {t : String} : Describes .text (.string t)
  | flag {b : Bool} : Describes .flag (.bool b)
  | list {elements : List Json} : Describes .list (.array elements)
  | location {members : List (Json.Key × Json)} :
      (∀ m ∈ members, m.1.names "start" ∨ m.1.names "end" → m.2.IsPosition) →
      Describes .location (.object members)
  | any {j : Json} : Describes .any j

/-- The coordinate that a JSON value sets, where a null keeps the one before. -/
def Json.coordinate? (before : Int64) : Json → Option Int64
  | .null => some before
  | .number n => Position.ofNumeral? n
  | _ => none

/-- The position that a JSON value sets. -/
def Json.position? (before : Position) : Json → Option Position
  | .null => some before
  | .object members => before.set? members
  | _ => none

theorem Position.set?_cons (p : Position) (key : Json.Key) (j : Json)
    (members : List (Json.Key × Json)) :
    p.set? ((key, j) :: members) =
      if key.names "line" then
        (j.coordinate? p.line).bind fun line => Position.set? { p with line } members
      else if key.names "column" then
        (j.coordinate? p.column).bind fun column => Position.set? { p with column } members
      else p.set? members := by
  cases j <;> rfl

theorem Span.set?_cons (s : Span) (key : Json.Key) (j : Json)
    (members : List (Json.Key × Json)) :
    s.set? ((key, j) :: members) =
      if key.names "start" then
        (j.position? s.start).bind fun start => Span.set? { s with start } members
      else if key.names "end" then
        (j.position? s.stop).bind fun stop => Span.set? { s with stop } members
      else s.set? members := by
  cases j <;> rfl

theorem isSome_bind_iff {α β : Type} {x : Option α} {f : α → Option β} {P : Prop}
    (h : ∀ a, (f a).isSome ↔ P) : (x.bind f).isSome ↔ x.isSome ∧ P := by
  cases x with
  | none => simp
  | some a => simpa using h a

theorem Json.coordinate?_isSome (before : Int64) (j : Json) :
    (j.coordinate? before).isSome ↔ j.IsCoordinate := by
  constructor
  · intro h
    cases j with
    | null => exact .null
    | number n =>
      simp only [coordinate?, Position.ofNumeral?] at h
      split at h
      · next hn => exact .number hn.1 hn.2
      · cases h
    | _ => cases h
  · intro h
    cases h with
    | null => rfl
    | number hplain hdigits =>
      rw [coordinate?, Position.ofNumeral?, if_pos ⟨hplain, hdigits⟩]
      rfl

/-- Whether a position can be set does not depend on what was set before. -/
theorem Position.set?_isSome (members : List (Json.Key × Json)) (p : Position) :
    (p.set? members).isSome
      ↔ ∀ m ∈ members, m.1.names "line" ∨ m.1.names "column" → m.2.IsCoordinate := by
  induction members generalizing p with
  | nil => simp [Position.set?]
  | cons m members ih =>
    rw [List.forall_mem_cons, Position.set?_cons]
    split_ifs with hline hcolumn
    · rw [isSome_bind_iff fun _ => ih _, Json.coordinate?_isSome]
      simp only [hline, true_or, forall_const]
    · rw [isSome_bind_iff fun _ => ih _, Json.coordinate?_isSome]
      simp only [hcolumn, or_true, forall_const]
    · rw [ih]
      simp only [hline, hcolumn, Bool.false_eq_true, or_self, false_imp_iff, true_and]

theorem Json.position?_isSome (before : Position) (j : Json) :
    (j.position? before).isSome ↔ j.IsPosition := by
  constructor
  · intro h
    cases j with
    | null => exact .null
    | object members => exact .object ((Position.set?_isSome members before).1 h)
    | _ => cases h
  · intro h
    cases h with
    | null => rfl
    | object hmembers => exact (Position.set?_isSome _ before).2 hmembers

theorem Span.set?_isSome (members : List (Json.Key × Json)) (s : Span) :
    (s.set? members).isSome
      ↔ ∀ m ∈ members, m.1.names "start" ∨ m.1.names "end" → m.2.IsPosition := by
  induction members generalizing s with
  | nil => simp [Span.set?]
  | cons m members ih =>
    rw [List.forall_mem_cons, Span.set?_cons]
    split_ifs with hstart hend
    · rw [isSome_bind_iff fun _ => ih _, Json.position?_isSome]
      simp only [hstart, true_or, forall_const]
    · rw [isSome_bind_iff fun _ => ih _, Json.position?_isSome]
      simp only [hend, or_true, forall_const]
    · rw [ih]
      simp only [hstart, hend, Bool.false_eq_true, or_self, false_imp_iff, true_and]

theorem Shape.accepts_iff {shape : Shape} {j : Json} :
    shape.accepts j = true ↔ shape.Describes j := by
  constructor
  · intro h
    cases shape with
    | text =>
      cases j with
      | null => exact .null
      | string t => exact .text
      | _ => exact absurd h Bool.false_ne_true
    | flag =>
      cases j with
      | null => exact .null
      | bool b => exact .flag
      | _ => exact absurd h Bool.false_ne_true
    | list =>
      cases j with
      | null => exact .null
      | array elements => exact .list
      | _ => exact absurd h Bool.false_ne_true
    | location =>
      cases j with
      | null => exact .null
      | object members => exact .location ((Span.set?_isSome members {}).1 h)
      | _ => exact absurd h Bool.false_ne_true
    | any => exact .any
  · intro h
    cases h with
    | null => cases shape <;> rfl
    | location hmembers => exact (Span.set?_isSome _ {}).2 hmembers
    | any => cases j <;> rfl
    | _ => rfl

/-! ## Literal values -/

/-- No number inside a JSON value is too large for the double format. -/
inductive Json.InRange : Json → Prop where
  | null : InRange .null
  | bool {b : Bool} : InRange (.bool b)
  | number {n : Numeral} : Binary.Format.magnitude n < (2 ^ 54 - 1) * 2 ^ 970 →
      InRange (.number n)
  | string {s : String} : InRange (.string s)
  | array {elements : List Json} : (∀ j ∈ elements, InRange j) → InRange (.array elements)
  | object {members : List (Json.Key × Json)} : (∀ m ∈ members, InRange m.2) →
      InRange (.object members)

mutual

theorem Value.ofJson?_isSome : ∀ j : Json, (Value.ofJson? j).isSome ↔ j.InRange
  | .null => iff_of_true rfl .null
  | .bool _ => iff_of_true rfl .bool
  | .string _ => iff_of_true rfl .string
  | .number n => by
    rw [Value.ofJson?, Option.isSome_map, Binary.Format.ofNumeral?_isSome]
    exact ⟨.number, fun | .number h => h⟩
  | .array js => by
    rw [Value.ofJson?, Option.isSome_map, Value.ofElements?_isSome js]
    exact ⟨.array, fun | .array h => h⟩
  | .object ms => by
    rw [Value.ofJson?, Option.isSome_map, Value.ofMembers?_isSome ms]
    exact ⟨.object, fun | .object h => h⟩

theorem Value.ofElements?_isSome : ∀ js : List Json,
    (Value.ofElements? js).isSome ↔ ∀ j ∈ js, j.InRange
  | [] => by simp [Value.ofElements?]
  | j :: js => by
    rw [List.forall_mem_cons, ← Value.ofJson?_isSome j, Value.ofElements?]
    refine isSome_bind_iff fun v => ?_
    rw [← Value.ofElements?_isSome js]
    cases Value.ofElements? js <;> rfl

theorem Value.ofMembers?_isSome : ∀ (ms : List (Json.Key × Json)) {done : List (String × Value)},
    (Value.ofMembers? done ms).isSome ↔ ∀ m ∈ ms, m.2.InRange
  | [], _ => by simp [Value.ofMembers?]
  | (k, j) :: ms, _ => by
    rw [List.forall_mem_cons, ← Value.ofJson?_isSome j, Value.ofMembers?]
    exact isSome_bind_iff fun v => Value.ofMembers?_isSome ms

end

end Scaffold
