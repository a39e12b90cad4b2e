import Scaffold.Proofs.Text.Quoted

/-!
# Brackets outside string literals

A text of code is read from left to right, one character at a time.  A double
quote opens a string literal, and the next double quote closes it unless a
backslash stands in front.  `outside?` gives what a text holds outside its string
literals.  It gives nothing when the last literal is not closed.

A text is *well bracketed* when the brackets outside its string literals are
nested and matched.  Well bracketed texts can be appended, put in brackets and
cut off before a space, and a quoted text is one, whatever it quotes.
-/

namespace Scaffold.Text

/-! ## Outside string literals -/

/-- Where a reader of code stands. -/
inductive Region where
  /-- Outside string literals. -/
  | code
  /-- Inside a string literal. -/
  | literal
  /-- After a backslash inside a string literal. -/
  | escape
  deriving DecidableEq, Repr

/-- The characters of a text outside its string literals, for a reader in a region. -/
def outside? : Region → List Char → Option (List Char)
  | .code, [] => some []
  | .literal, [] | .escape, [] => none
  | .code, c :: cs => if c = '"' then outside? .literal cs else (outside? .code cs).map (c :: ·)
  | .literal, c :: cs =>
    if c = '"' then outside? .code cs
    else if c = '\\' then outside? .escape cs
    else outside? .literal cs
  | .escape, _ :: cs => outside? .literal cs

/-- After the end of a text the reader is in code, so what follows is read by itself. -/
theorem outside?_append {region : Region} {s outer : List Char}
    (h : outside? region s = some outer) (t : List Char) :
    outside? region (s ++ t) = (outside? .code t).map (outer ++ ·) := by
  induction s generalizing region outer with
  | nil =>
    cases region with
    | code =>
      cases h
      simp
    | literal => cases h
    | escape => cases h
  | cons c s ih =>
    rw [List.cons_append]
    cases region with
    | code =>
      rw [outside?] at h ⊢
      split at h
      · rw [if_pos ‹_›, ih h]
      · obtain ⟨rest, hrest, rfl⟩ := Option.map_eq_some_iff.1 h
        rw [if_neg ‹_›, ih hrest, Option.map_map]
        rfl
    | literal =>
      rw [outside?] at h ⊢
      split at h
      · rw [if_pos ‹_›, ih h]
      · split at h
        · rw [if_neg ‹_›, if_pos ‹_›, ih h]
        · rw [if_neg ‹_›, if_neg ‹_›, ih h]
    | escape => exact ih h

/-- A text without quotes is outside. -/
theorem outside?_plain {s : List Char} (h : '"' ∉ s) : outside? .code s = some s := by
  induction s with
  | nil => rfl
  | cons c s ih =>
    simp only [List.mem_cons, not_or] at h
    rw [outside?, if_neg (Ne.symm h.1), ih h.2]
    rfl

/-- A space at the end of a text is outside. -/
theorem outside?_space {region : Region} {s outer : List Char}
    (h : outside? region (s ++ [' ']) = some outer) :
    ∃ outer', outside? region s = some outer' ∧ outer = outer' ++ [' '] := by
  induction s generalizing region outer with
  | nil =>
    cases region with
    | code =>
      cases h
      exact ⟨[], rfl, rfl⟩
    | literal => cases h
    | escape => cases h
  | cons c s ih =>
    rw [List.cons_append] at h
    cases region with
    | code =>
      rw [outside?] at h ⊢
      split at h
      · rw [if_pos ‹_›]
        exact ih h
      · obtain ⟨rest, hrest, rfl⟩ := Option.map_eq_some_iff.1 h
        obtain ⟨rest', hrest', rfl⟩ := ih hrest
        rw [if_neg ‹_›, hrest']
        exact ⟨c :: rest', rfl, rfl⟩
    | literal =>
      rw [outside?] at h ⊢
      split at h
      · rw [if_pos ‹_›]
        exact ih h
      · rw [if_neg ‹_›]
        split at h
        · rw [if_pos ‹_›]
          exact ih h
        · rw [if_neg ‹_›]
          exact ih h
    | escape => exact ih h

/-! ## Quoted texts -/

theorem outside?_literal {s : List Char} (h : ∀ c ∈ s, c ≠ '"' ∧ c ≠ '\\') (r : List Char) :
    outside? .literal (s ++ r) = outside? .literal r := by
  induction s with
  | nil => rfl
  | cons c s ih =>
    rw [List.forall_mem_cons] at h
    rw [List.cons_append, outside?, if_neg h.1.1, if_neg h.1.2, ih h.2]

theorem outside?_escape (letter : Char) (r : List Char) :
    outside? .literal ('\\' :: letter :: r) = outside? .literal r := rfl

/-- What is written for a character stays inside the literal. -/
theorem outside?_quoteChar (c : Char) (r : List Char) :
    outside? .literal (quoteChar c ++ r) = outside? .literal r := by
  have hspelling := spelling_quoteChar c
  generalize quoteChar c = text at hspelling
  cases hspelling with
  | plain hquote hslash _ =>
    exact outside?_literal (List.forall_mem_singleton.2 ⟨hquote, hslash⟩) r
  | @letter letter _ => exact outside?_escape letter r
  | @code letter width _ _ _ =>
    exact (outside?_escape letter _).trans (outside?_literal (fun _ => ne_of_mem_hex) r)

/-- Nothing of a quoted text is outside, and the literal is closed. -/
theorem outside?_quote (s : String) : outside? .code (quote s).toList = some [] := by
  rw [quote, String.toList_ofList, quoteChars]
  show outside? .literal (s.toList.flatMap quoteChar ++ ['"']) = some []
  induction s.toList with
  | nil => rfl
  | cons c cs ih => rw [List.flatMap_cons, List.append_assoc, outside?_quoteChar, ih]

/-! ## Nested brackets -/

/-- The bracket that closes an opening one. -/
def closing? : Char → Option Char
  | '(' => some ')'
  | '[' => some ']'
  | '\x7b' => some '\x7d'
  | _ => none

/-- Whether a character is a bracket. -/
def isBracket (c : Char) : Bool := "()[]\x7b\x7d".toList.contains c

/-- Brackets that are nested and matched: nothing, or an opening bracket, nested brackets, the
bracket that closes it, and further nested brackets. -/
inductive Nested : List Char → Prop where
  | nil : Nested []
  | pair {a b : Char} {inner rest : List Char} : closing? a = some b → Nested inner →
      Nested rest → Nested (a :: inner ++ b :: rest)

theorem Nested.append {cs ds : List Char} (hcs : Nested cs) (hds : Nested ds) :
    Nested (cs ++ ds) := by
  induction hcs with
  | nil => exact hds
  | pair hab hinner _ _ ih =>
    rw [List.append_assoc, List.cons_append]
    exact .pair hab hinner ih

/-- The brackets outside the string literals of a text are nested and matched, and the last literal
is closed. -/
def WellBracketed (s : String) : Prop :=
  ∃ outer, outside? .code s.toList = some outer ∧ Nested (outer.filter isBracket)

namespace WellBracketed

theorem plain {s : String} (hquote : '"' ∉ s.toList)
    (hbracket : ∀ c ∈ s.toList, isBracket c = false) : WellBracketed s := by
  refine ⟨s.toList, outside?_plain hquote, ?_⟩
  rw [List.filter_eq_nil_iff.2 fun c hc => by simp [hbracket c hc]]
  exact .nil

theorem quoted (s : String) : WellBracketed (quote s) := ⟨[], outside?_quote s, .nil⟩

theorem append {s t : String} (hs : WellBracketed s) (ht : WellBracketed t) :
    WellBracketed (s ++ t) := by
  obtain ⟨outer, houter, hnested⟩ := hs
  obtain ⟨outer', houter', hnested'⟩ := ht
  refine ⟨outer ++ outer', ?_, ?_⟩
  · rw [String.toList_append, outside?_append houter, houter']
    rfl
  · rw [List.filter_append]
    exact hnested.append hnested'

/-- A text between two brackets that match. -/
theorem enclosed {a b : Char} {s : String} (hab : closing? a = some b) (ha : isBracket a = true)
    (hb : isBracket b = true) (hs : WellBracketed s) :
    WellBracketed (String.ofList [a] ++ s ++ String.ofList [b]) := by
  obtain ⟨outer, houter, hnested⟩ := hs
  have hquote {c : Char} (hc : isBracket c = true) : c ≠ '"' := by
    rintro rfl
    cases hc
  refine ⟨a :: outer ++ [b], ?_, ?_⟩
  · rw [String.append_assoc, String.toList_append, String.toList_append, String.toList_ofList,
      String.toList_ofList, List.singleton_append, outside?, if_neg (hquote ha),
      outside?_append houter, outside?, if_neg (hquote hb)]
    rfl
  · simp only [List.cons_append, List.filter_cons, ha, List.filter_append, hb, if_true,
      List.filter_nil]
    exact .pair hab hnested .nil

theorem before {s : String} (h : WellBracketed (s ++ " ")) : WellBracketed s := by
  obtain ⟨outer, houter, hnested⟩ := h
  rw [String.toList_append] at houter
  obtain ⟨outer', houter', rfl⟩ := outside?_space houter
  have hspace : [' '].filter isBracket = [] := rfl
  rw [List.filter_append, hspace, List.append_nil] at hnested
  exact ⟨outer', houter', hnested⟩

end WellBracketed

end Scaffold.Text
