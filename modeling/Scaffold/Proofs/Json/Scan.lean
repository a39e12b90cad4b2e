import Mathlib.Data.List.TakeWhile
import Scaffold.Json.Reader
import Scaffold.Text.Blank

/-!
# Tokens and blanks

What the scanner does with the front of a text.  A token is cut off and the rest
is scanned (`Token.scanWithin_token`).  No token starts with a blank, so blanks
in front of a text are either separators, which leave no trace, or make the scan
fail (`Token.scanWithin_blanks`).
-/

namespace Scaffold

/-- A text is its trimmed part between two runs of what was trimmed. -/
theorem Text.exists_trim (p : Char → Bool) (cs : List Char) :
    ∃ before after, (∀ c ∈ before, p c = true) ∧ (∀ c ∈ after, p c = true) ∧
      cs = before ++ trim p cs ++ after := by
  refine ⟨cs.takeWhile p, ((cs.dropWhile p).reverse.takeWhile p).reverse, ?_, ?_, ?_⟩
  · exact fun c hc => List.mem_takeWhile_imp hc
  · exact fun c hc => List.mem_takeWhile_imp (List.mem_reverse.1 hc)
  · rw [trim, trimEnd, trimStart, List.append_assoc, ← List.reverse_append,
      List.takeWhile_append_dropWhile, List.reverse_reverse, List.takeWhile_append_dropWhile]

namespace Json

theorem isDigit_eq_false_of_isBlank {c : Char} (h : Text.isBlank c = true) : isDigit c = false := by
  have hdigit : isDigit c = (decide (48 ≤ c.toNat) && decide (c.toNat ≤ 57)) := rfl
  simp only [Text.isBlank, Bool.or_eq_true, Bool.and_eq_true, decide_eq_true_eq, beq_iff_eq] at h
  rw [hdigit, Bool.and_eq_false_iff, decide_eq_false_iff_not, decide_eq_false_iff_not]
  omega

theorem readNumeral?_eq_none {c : Char} (hc : isDigit c = false) (hminus : c ≠ '-')
    (cs : List Char) : readNumeral? (c :: cs) = none := by
  have hdigits : readDigits? (c :: cs) = none := by simp [readDigits?, hc]
  unfold readNumeral?
  split
  · next heq => exact absurd (List.cons.inj heq).1 hminus
  · simp [readUnsigned?, hdigits]

/-- No token starts with a blank. -/
theorem Token.next?_blank {c : Char} (h : Text.isBlank c = true) (cs : List Char) :
    Token.next? (c :: cs) = none := by
  have hne {d : Char} (hd : Text.isBlank d = false) : c ≠ d := by
    rintro rfl
    rw [h] at hd
    cases hd
  have hnumeral := readNumeral?_eq_none (isDigit_eq_false_of_isBlank h) (hne (by decide)) cs
  unfold Token.next?
  split
  case h_11 => simp [hnumeral]
  all_goals
    rename_i heq
    exact absurd (List.cons.inj heq).1 (hne (by decide))

/-- Blanks in front of a text hold no token. -/
theorem Token.scanWithin_blanks {fuel : Nat} {before cs : List Char} {tokens : List Token}
    (hbefore : ∀ c ∈ before, Text.isBlank c = true)
    (h : Token.scanWithin fuel (before ++ cs) = some tokens) :
    ∃ fuel', Token.scanWithin fuel' cs = some tokens := by
  induction before generalizing fuel with
  | nil => exact ⟨fuel, h⟩
  | cons c before ih =>
    rw [List.forall_mem_cons] at hbefore
    cases fuel with
    | zero => cases h
    | succ fuel =>
      rw [List.cons_append, Token.scanWithin] at h
      split at h
      · exact ih hbefore.2 h
      · rw [Token.next?_blank hbefore.1] at h
        cases h

theorem Token.scanWithin_all_blank {fuel : Nat} {cs : List Char} {tokens : List Token}
    (hcs : ∀ c ∈ cs, Text.isBlank c = true) (h : Token.scanWithin fuel cs = some tokens) :
    tokens = [] := by
  rw [← List.append_nil cs] at h
  obtain ⟨fuel', h'⟩ := Token.scanWithin_blanks hcs h
  cases fuel' <;> exact (Option.some.inj h').symm

/-- A token in front of a text. -/
theorem Token.scanWithin_token {c : Char} {cs rest : List Char} {token : Token}
    (hspace : isSpace c = false) (hnext : Token.next? (c :: cs) = some (token, rest)) (fuel : Nat) :
    Token.scanWithin (fuel + 1) (c :: cs) = (Token.scanWithin fuel rest).map (token :: ·) := by
  rw [Token.scanWithin, hspace, hnext]
  cases h : Token.scanWithin fuel rest <;> simp [h]

theorem read?_eq_some {document : String} {j : Json} :
    read? document = some j ↔ ∃ tokens, Token.scan? document.toList = some tokens ∧
      Token.nestWithin nestingLimit 0 tokens = true ∧
      readValue? (2 * tokens.length + 1) tokens = some (j, []) := by
  simp only [read?, Option.bind_eq_bind, Option.bind_eq_some_iff]
  refine exists_congr fun tokens => and_congr_right fun _ => ?_
  cases Token.nestWithin nestingLimit 0 tokens with
  | false => simp
  | true =>
    cases readValue? (2 * tokens.length + 1) tokens with
    | none => simp
    | some result =>
      obtain ⟨value, rest⟩ := result
      cases rest <;> simp

end Json

end Scaffold
