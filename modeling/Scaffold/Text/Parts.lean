/-!
# Parts of a text

Cutting a text at a separator and joining texts.  Cutting works on lists of
characters and always gives at least one part.  It is the cutting of lists
(`splitOn_eq`), so joining the parts with the separator gives the text back.
-/

namespace Scaffold.Text

/-- The parts of a text between the occurrences of a character. -/
def splitOn (sep : Char) : List Char → List (List Char)
  | [] => [[]]
  | c :: cs =>
    if c = sep then [] :: splitOn sep cs
    else match splitOn sep cs with
      | [] => [[c]]
      | part :: parts => (c :: part) :: parts

theorem splitOn_eq (sep : Char) (cs : List Char) : splitOn sep cs = cs.splitOn sep := by
  induction cs with
  | nil => rfl
  | cons c cs ih =>
    rw [splitOn, ih, List.splitOn_cons_eq_if_modifyHead]
    by_cases hc : c = sep
    · simp [hc]
    · rw [if_neg hc, if_neg (by simpa using hc)]
      cases hcs : cs.splitOn sep with
      | nil => exact absurd hcs (List.splitOn_ne_nil sep cs)
      | cons part parts => rfl

/-- A part stands somewhere in the text, and does not hold the separator. -/
theorem of_mem_splitOn {sep : Char} {cs part : List Char} (h : part ∈ splitOn sep cs) :
    sep ∉ part ∧ part <:+: cs := by
  rw [splitOn_eq] at h
  by_cases hsep : sep ∈ cs
  · obtain ⟨first, rest, rfl, hfirst⟩ := List.eq_append_cons_of_mem hsep
    rw [List.splitOn_append_cons_self_of_not_mem hfirst] at h
    rcases List.mem_cons.1 h with rfl | hrest
    · exact ⟨hfirst, (List.prefix_append part _).isInfix⟩
    · obtain ⟨hlacks, hpiece⟩ := of_mem_splitOn (splitOn_eq sep rest ▸ hrest)
      have hsuffix : rest <:+ first ++ sep :: rest :=
        (List.suffix_cons sep rest).trans (List.suffix_append first _)
      exact ⟨hlacks, hpiece.trans hsuffix.isInfix⟩
  · rw [List.splitOn_eq_singleton hsep, List.mem_singleton] at h
    exact ⟨h ▸ hsep, h ▸ List.infix_refl cs⟩
termination_by cs.length

/-- The non-empty texts of a list, joined by single spaces. -/
def joinNonEmpty (parts : List String) : String :=
  " ".intercalate (parts.filter (· ≠ ""))

end Scaffold.Text
