import Scaffold.Tree.Value

/-!
# Characters of numbers

The text of a number in code is never empty, and it consists of letters, digits,
signs and points.  The letters are those of the values that are no finite number.

The digits of a number come from a search, and whatever the search finds are the
decimal digits of a natural number.
-/

namespace Scaffold

/-- A character that can stand in the text of a number. -/
def IsNumberChar (c : Char) : Prop := c.isAlphanum = true ∨ c ∈ ['+', '-', '.']

namespace Digits

theorem isDigit_ofNat {n : Nat} {c : Char} (h : c ∈ ofNat n) : c.isDigit = true :=
  Nat.isDigit_of_mem_toDigits (by decide) (by decide) h

theorem isDigit_normal {n : Nat} {last : Int} {c : Char} (h : c ∈ (normal n last).digits) :
    c.isDigit = true := by
  rw [normal, List.mem_reverse] at h
  exact isDigit_ofNat (List.mem_reverse.1 ((List.dropWhile_sublist _).subset h))

theorem isDigit_search {i : Interval} {value : Nat} {quarter place : Int} {fuel count : Nat}
    {d : Digits} (h : search i value quarter place fuel count = some d) :
    ∀ c ∈ d.digits, c.isDigit = true := by
  induction fuel generalizing count with
  | zero => cases h
  | succ fuel ih =>
    rw [search] at h
    split at h
    · cases h
      intro c hc
      exact isDigit_normal hc
    · exact ih h

theorem isDigit_shortest {f : Binary.Format} {mantissa : Nat} {exponent : Int} {c : Char}
    (h : c ∈ (shortest f mantissa exponent).digits) : c.isDigit = true := by
  rw [shortest] at h
  dsimp only at h
  cases hsearch : search (interval f mantissa exponent) (4 * mantissa) (exponent - 2)
      (place (Ratio.scale 2 (4 * mantissa) 1 (-(exponent - 2))).1
        (Ratio.scale 2 (4 * mantissa) 1 (-(exponent - 2))).2) most 1 with
  | none =>
    rw [hsearch] at h
    cases h
  | some d =>
    rw [hsearch] at h
    exact isDigit_search hsearch c h

theorem mem_positional {d : Digits} {c : Char} (h : c ∈ d.positional) :
    c = '0' ∨ c = '.' ∨ c ∈ d.digits := by
  rw [positional] at h
  split at h
  · simp only [List.cons_append, List.mem_cons, List.mem_append, List.mem_replicate] at h
    rcases h with h | h | h | h
    · exact .inl h
    · exact .inr (.inl h)
    · exact .inl h.2
    · exact .inr (.inr h)
  · split at h
    · simp only [List.mem_append, List.mem_replicate] at h
      rcases h with h | h
      · exact .inr (.inr h)
      · exact .inl h.2
    · simp only [List.mem_append, List.mem_cons] at h
      rcases h with h | h | h
      · exact .inr (.inr (List.mem_of_mem_take h))
      · exact .inr (.inl h)
      · exact .inr (.inr (List.mem_of_mem_drop h))

theorem positional_ne_nil (d : Digits) : d.positional ≠ [] := by
  rw [positional]
  split
  · simp
  split
  · intro h
    simp only [List.append_eq_nil_iff, List.replicate_eq_nil_iff] at h
    rw [h.1, List.length_nil] at h
    omega
  · simp

end Digits

namespace Binary

theorem isNumberChar_codeText {f : Format} {x : Binary} {c : Char}
    (h : c ∈ (codeText f x).toList) : IsNumberChar c := by
  have hdigit : ∀ {mantissa : Nat} {exponent : Int}, c ∈ (if mantissa = 0 then ['0']
      else (Digits.shortest f mantissa exponent).positional) → IsNumberChar c := by
    intro mantissa exponent h
    split at h
    · cases List.mem_singleton.1 h
      exact .inl rfl
    · rcases Digits.mem_positional h with rfl | rfl | hc
      · exact .inl rfl
      · exact .inr (by decide)
      · exact .inl (by rw [Char.isAlphanum, Digits.isDigit_shortest hc, Bool.or_true])
  cases x with
  | nan =>
    have hall : "NaN".toList.all Char.isAlphanum = true := rfl
    exact .inl (List.all_eq_true.1 hall c h)
  | infinite negative =>
    have hall : (codeText f (infinite negative)).toList.all
        (fun c => c.isAlphanum || ['+', '-', '.'].contains c) = true := by
      rw [codeText, textWith]
      cases negative <;> decide
    simpa [IsNumberChar] using List.all_eq_true.1 hall c h
  | finite negative mantissa exponent =>
    rw [codeText, textWith, String.toList_ofList] at h
    cases negative with
    | false => exact hdigit h
    | true =>
      rcases List.mem_cons.1 h with rfl | h
      · exact .inr (by decide)
      · exact hdigit h

theorem codeText_ne_empty (f : Format) (x : Binary) : codeText f x ≠ "" := by
  cases x with
  | nan => exact (by decide : "NaN" ≠ "")
  | infinite negative =>
    cases negative with
    | true => exact (by decide : "-Inf" ≠ "")
    | false => exact (by decide : "+Inf" ≠ "")
  | finite negative mantissa exponent =>
    rw [ne_eq, ← String.toList_inj, codeText, textWith, String.toList_ofList]
    cases negative with
    | true => exact List.cons_ne_nil _ _
    | false =>
      show (if mantissa = 0 then ['0'] else _) ≠ []
      split
      · exact List.cons_ne_nil _ _
      · exact Digits.positional_ne_nil _

end Binary

/-! ## Integers -/

theorem isNumberChar_toString {n : Int} {c : Char} (h : c ∈ (toString n).toList) :
    IsNumberChar c := by
  have hdigit {m : Nat} (h : c ∈ m.repr.toList) : IsNumberChar c := by
    rw [Nat.toList_repr] at h
    exact .inl (by rw [Char.isAlphanum, Digits.isDigit_ofNat h, Bool.or_true])
  rw [Int.toString_eq_repr] at h
  cases n with
  | ofNat m => exact hdigit h
  | negSucc m =>
    rw [Int.repr, String.toList_append, List.mem_append] at h
    rcases h with h | h
    · cases List.mem_singleton.1 h
      exact .inr (by decide)
    · exact hdigit h

theorem toString_int_ne_empty (n : Int) : toString n ≠ "" := by
  rw [Int.toString_eq_repr, ne_eq, ← String.toList_inj]
  cases n with
  | ofNat m =>
    show m.repr.toList ≠ []
    rw [Nat.toList_repr]
    exact Nat.toDigits_ne_nil
  | negSucc m =>
    rw [Int.repr, String.toList_append]
    exact List.cons_ne_nil _ _

end Scaffold
