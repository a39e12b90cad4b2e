import Mathlib.Data.List.Nodup
import Scaffold.Tree.Decode

/-!
# Members of node objects

`Holds members f j` says that an object has a member for the field `f` with the
value `j`.  Decoding sees an object through its entries, and every entry comes
from such a member (`mem_entries`).

When no key is repeated, a field has at most one member.  The source type is the
exception, since it has two keys.  For every other field the searches for the
last text and the last reading find the member (`text_holds`, `last?_holds`).
When every field occurs once, they find it for all of them (`text_once`,
`flag_once`, `last?_once`).
-/

namespace Scaffold

/-- No object inside a JSON value repeats a key. -/
inductive Json.KeysDistinct : Json → Prop where
  | null : KeysDistinct .null
  | bool {b : Bool} : KeysDistinct (.bool b)
  | number {n : Numeral} : KeysDistinct (.number n)
  | string {s : String} : KeysDistinct (.string s)
  | array {elements : List Json} : (∀ j ∈ elements, KeysDistinct j) →
      KeysDistinct (.array elements)
  | object {members : List (Json.Key × Json)} : (members.map fun m => m.1.text).Nodup →
      (∀ m ∈ members, KeysDistinct m.2) → KeysDistinct (.object members)

namespace Field

theorem ofKey?_key (f : Field) : ofKey? f.key = some f := by
  cases f <;> rfl

/-- The keys of a field: its own, and one more for the source type. -/
theorem ofKey?_eq_some {key : String} {f : Field} :
    ofKey? key = some f ↔ key = f.key ∨ key = "sourcetype" ∧ f = .sourceType := by
  constructor
  · intro h
    rw [ofKey?] at h
    split at h
    · next hkey => exact .inr ⟨hkey, (Option.some.inj h).symm⟩
    · have hkey : f.key = key := by simpa using List.find?_some h
      exact .inl hkey.symm
  · rintro (rfl | ⟨rfl, rfl⟩)
    · exact ofKey?_key f
    · rfl

end Field

namespace Decode

/-- The object has a member for a field with a value. -/
def Holds (members : List (Json.Key × Json)) (f : Field) (j : Json) : Prop :=
  ∃ key, (key, j) ∈ members ∧ Field.ofKey? key.text = some f

/-- What is kept of a value. -/
def reading (j : Json) : Reading := ⟨j, ofJson j, ofArray j⟩

theorem entries_eq : ∀ members : List (Json.Key × Json),
    entries members
      = members.filterMap fun m => (Field.ofKey? m.1.text).map fun f => (f, reading m.2)
  | [] => rfl
  | (key, j) :: members => by
    rw [entries, List.filterMap_cons, entries_eq members]
    cases Field.ofKey? key.text <;> rfl

theorem mem_entries {members : List (Json.Key × Json)} {f : Field} {r : Reading} :
    (f, r) ∈ entries members ↔ ∃ j, Holds members f j ∧ r = reading j := by
  simp only [entries_eq, List.mem_filterMap, Option.map_eq_some_iff]
  constructor
  · rintro ⟨⟨key, j⟩, hmem, g, hkey, heq⟩
    cases heq
    exact ⟨j, ⟨key, hmem, hkey⟩, rfl⟩
  · rintro ⟨j, ⟨key, hmem, hkey⟩, rfl⟩
    exact ⟨(key, j), hmem, f, hkey, rfl⟩

/-- The shape of every field is checked on its value. -/
theorem accepts_entries {members : List (Json.Key × Json)} :
    accepts (entries members) = true
      ↔ ∀ f j, Holds members f j → f.shape.accepts j = true := by
  rw [accepts, List.all_eq_true]
  constructor
  · intro h f j hj
    exact h (f, reading j) (mem_entries.2 ⟨j, hj, rfl⟩)
  · rintro h ⟨f, r⟩ hr
    obtain ⟨j, hj, rfl⟩ := mem_entries.1 hr
    exact h f j hj

/-! ## The last text, the last flag and the last reading -/

/-- The last value of a field that `pick` takes something from, `start` when there is none. -/
def lastOf {α : Type} (pick : Json → Option α) (f : Field) (start : α) (es : Entries) : α :=
  es.foldl (fun a e => match pick e.2.value with
    | some b => if e.1 = f then b else a
    | none => a) start

theorem lastOf_cons_of_eq {α : Type} {pick : Json → Option α} {f : Field} {r : Reading} {b : α}
    (hb : pick r.value = some b) (start : α) (es : Entries) :
    lastOf pick f start ((f, r) :: es) = lastOf pick f b es := by
  simp only [lastOf, List.foldl_cons, hb, if_true]

theorem lastOf_cons_of_ne {α : Type} {pick : Json → Option α} {f g : Field} {r : Reading}
    (h : ∀ b, g = f → pick r.value ≠ some b) (start : α) (es : Entries) :
    lastOf pick f start ((g, r) :: es) = lastOf pick f start es := by
  rw [lastOf, List.foldl_cons]
  congr 1
  dsimp only
  split
  · next b hb => exact if_neg fun hg => h b hg hb
  · rfl

/-- The search ends with what it starts from, or with something that is there. -/
theorem lastOf_cases {α : Type} (pick : Json → Option α) (f : Field) (es : Entries) (start : α) :
    (lastOf pick f start es = start ∧ ∀ r b, (f, r) ∈ es → pick r.value ≠ some b) ∨
      ∃ r, (f, r) ∈ es ∧ pick r.value = some (lastOf pick f start es) := by
  induction es generalizing start with
  | nil => exact .inl ⟨rfl, fun _ _ h => nomatch h⟩
  | cons e es ih =>
    obtain ⟨g, r⟩ := e
    by_cases hr : ∃ b, g = f ∧ pick r.value = some b
    · obtain ⟨b, rfl, hb⟩ := hr
      rw [lastOf_cons_of_eq hb]
      rcases ih b with ⟨hstart, -⟩ | ⟨r', hmem, hr'⟩
      · exact .inr ⟨r, List.mem_cons_self, by rw [hstart, hb]⟩
      · exact .inr ⟨r', List.mem_cons_of_mem _ hmem, hr'⟩
    · rw [lastOf_cons_of_ne fun b hg hb => hr ⟨b, hg, hb⟩]
      rcases ih start with ⟨hstart, hnone⟩ | ⟨r', hmem, hr'⟩
      · refine .inl ⟨hstart, fun r' b hmem hb => ?_⟩
        rcases List.mem_cons.1 hmem with heq | hmem
        · cases heq
          exact hr ⟨b, rfl, hb⟩
        · exact hnone r' b hmem hb
      · exact .inr ⟨r', List.mem_cons_of_mem _ hmem, hr'⟩

/-- What the search ends with is there, if there is anything. -/
theorem lastOf_mem {α : Type} {pick : Json → Option α} {f : Field} {es : Entries} {r : Reading}
    {b : α} (hr : (f, r) ∈ es) (hb : pick r.value = some b) (start : α) :
    ∃ r', (f, r') ∈ es ∧ pick r'.value = some (lastOf pick f start es) := by
  rcases lastOf_cases pick f es start with ⟨-, hnone⟩ | hsome
  · exact absurd hb (hnone r b hr)
  · exact hsome

/-- The text that a JSON value is. -/
def textOf? : Json → Option String
  | .string t => some t
  | _ => none

/-- The flag that a JSON value is. -/
def flagOf? : Json → Option Bool
  | .bool b => some b
  | _ => none

theorem textOf?_eq_some {j : Json} {t : String} : textOf? j = some t ↔ j = .string t := by
  cases j <;> simp [textOf?]

theorem flagOf?_eq_some {j : Json} {b : Bool} : flagOf? j = some b ↔ j = .bool b := by
  cases j <;> simp [flagOf?]

theorem text_eq_lastOf (f : Field) (es : Entries) : text f es = lastOf textOf? f "" es := by
  rw [text, lastOf]
  congr 1
  funext s e
  cases e.2.value <;> rfl

theorem flag_eq_lastOf (f : Field) (es : Entries) : flag f es = lastOf flagOf? f false es := by
  rw [flag, lastOf]
  congr 1
  funext b e
  cases e.2.value <;> rfl

/-- A text that is not empty is there. -/
theorem mem_of_text_ne {f : Field} {es : Entries} (h : text f es ≠ "") :
    ∃ r, (f, r) ∈ es ∧ r.value = .string (text f es) := by
  rw [text_eq_lastOf] at h ⊢
  rcases lastOf_cases textOf? f es "" with ⟨hempty, -⟩ | ⟨r, hr, htext⟩
  · exact absurd hempty h
  · exact ⟨r, hr, textOf?_eq_some.1 htext⟩

theorem last?_mem {f : Field} {r : Reading} : ∀ {es : Entries}, last? f es = some r → (f, r) ∈ es
  | (g, r') :: es, h => by
    rw [last?] at h
    cases hlast : last? f es with
    | some r'' =>
      rw [hlast] at h
      cases h
      exact List.mem_cons_of_mem _ (last?_mem hlast)
    | none =>
      rw [hlast] at h
      by_cases hg : g = f
      · simp only [hg, if_true, Option.some.injEq] at h
        rw [hg, h]
        exact List.mem_cons_self
      · simp [hg] at h

theorem last?_isSome {f : Field} {r : Reading} : ∀ {es : Entries}, (f, r) ∈ es →
    ∃ r', last? f es = some r'
  | (g, r') :: es, h => by
    rw [last?]
    cases hlast : last? f es with
    | some r'' => exact ⟨r'', rfl⟩
    | none =>
      rcases List.mem_cons.1 h with heq | hmem
      · cases heq
        exact ⟨r, by simp⟩
      · obtain ⟨r'', hr''⟩ := last?_isSome hmem
        rw [hlast] at hr''
        cases hr''

/-! ## Fields without repeated keys -/

section Distinct
variable {members : List (Json.Key × Json)} (hkeys : (members.map fun m => m.1.text).Nodup)
  {f : Field} (hf : f ≠ .sourceType)
include hkeys hf

/-- A field has at most one value. -/
theorem holds_unique {j j' : Json} (h : Holds members f j) (h' : Holds members f j') : j = j' := by
  obtain ⟨key, hmem, hkey⟩ := h
  obtain ⟨key', hmem', hkey'⟩ := h'
  have htext : key.text = key'.text := by
    rcases Field.ofKey?_eq_some.1 hkey with hkey | ⟨-, hkey⟩
    · rcases Field.ofKey?_eq_some.1 hkey' with hkey' | ⟨-, hkey'⟩
      · rw [hkey, hkey']
      · exact absurd hkey' hf
    · exact absurd hkey hf
  have heq := List.inj_on_of_nodup_map hkeys hmem hmem' htext
  exact congrArg Prod.snd heq

/-- The text of a field is its value, when that is a text. -/
theorem text_holds {t : String} (h : Holds members f (.string t)) :
    text f (entries members) = t := by
  obtain ⟨r, hr, ht⟩ := lastOf_mem (mem_entries.2 ⟨.string t, h, rfl⟩)
    (textOf?_eq_some.2 rfl) ""
  obtain ⟨j, hj, rfl⟩ := mem_entries.1 hr
  have heq : j = .string t := holds_unique hkeys hf hj h
  rw [heq, ← text_eq_lastOf] at ht
  exact (Option.some.inj ht).symm

/-- The last reading of a field is that of its value. -/
theorem last?_holds {j : Json} (h : Holds members f j) :
    last? f (entries members) = some (reading j) := by
  obtain ⟨r, hr⟩ := last?_isSome (mem_entries.2 ⟨j, h, rfl⟩)
  obtain ⟨j', hj', rfl⟩ := mem_entries.1 (last?_mem hr)
  rw [hr, holds_unique hkeys hf hj' h]

end Distinct

/-- A field without a value has no reading. -/
theorem last?_absent {members : List (Json.Key × Json)} {f : Field}
    (h : ∀ j, ¬ Holds members f j) : last? f (entries members) = none := by
  cases hlast : last? f (entries members) with
  | none => rfl
  | some r =>
    obtain ⟨j, hj, -⟩ := mem_entries.1 (last?_mem hlast)
    exact absurd hj (h j)

/-! ## Entries with each field once -/

section Once
variable {es : Entries} (honce : (es.map Prod.fst).Nodup) {f : Field} {r : Reading}
  (hr : (f, r) ∈ es)
include honce hr

theorem reading_unique {r' : Reading} (hr' : (f, r') ∈ es) : r' = r :=
  congrArg Prod.snd (List.inj_on_of_nodup_map honce hr' hr rfl)

theorem lastOf_once {α : Type} {pick : Json → Option α} {b : α} (hb : pick r.value = some b)
    (start : α) : lastOf pick f start es = b := by
  obtain ⟨r', hr', hb'⟩ := lastOf_mem hr hb start
  rw [reading_unique honce hr hr', hb] at hb'
  exact (Option.some.inj hb').symm

theorem text_once {t : String} (ht : r.value = .string t) : text f es = t := by
  rw [text_eq_lastOf]
  exact lastOf_once honce hr (textOf?_eq_some.2 ht) ""

theorem flag_once {b : Bool} (hb : r.value = .bool b) : flag f es = b := by
  rw [flag_eq_lastOf]
  exact lastOf_once honce hr (flagOf?_eq_some.2 hb) false

theorem last?_once : last? f es = some r := by
  obtain ⟨r', hr'⟩ := last?_isSome hr
  rw [hr', reading_unique honce hr (last?_mem hr')]

end Once

end Decode

end Scaffold
