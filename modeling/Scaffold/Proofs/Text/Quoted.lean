import Mathlib.Algebra.Order.Ring.Nat
import Scaffold.Text.Quoted

/-!
# Reading quoted text

A character between quotes stands for itself, or it is an escape: a backslash
with a letter, or a backslash with a letter and a fixed number of hexadecimal
digits (`Spelling`).  `unquoteChar?` reads one of them, and it reads back what was
written for a character in front of any other text.  So the text between quotes
can be told from what follows it.

* `quote_cancel`: a quoted text at the front of a text is the only one.
* `isPrintable_of_mem_quote`: a quoted text consists of printable characters.
-/

namespace Scaffold.Text

/-! ## Runs of characters -/

/-- A run of characters is read up to the first one that does not belong to it. -/
theorem run_cancel {p : Char → Bool} {a b r s : List Char} (ha : ∀ c ∈ a, p c = true)
    (hb : ∀ c ∈ b, p c = true) (hr : ∀ c ∈ r.head?, p c = false) (hs : ∀ c ∈ s.head?, p c = false)
    (h : a ++ r = b ++ s) : a = b ∧ r = s := by
  have hrun {a r : List Char} (ha : ∀ c ∈ a, p c = true) (hr : ∀ c ∈ r.head?, p c = false) :
      (a ++ r).takeWhile p = a := by
    rw [List.takeWhile_append_of_pos ha]
    cases r with
    | nil => simp
    | cons c cs => simp [hr c rfl]
  have htext : a = b := by
    rw [← hrun ha hr, h, hrun hb hs]
  subst htext
  exact ⟨rfl, List.append_cancel_left h⟩

/-! ## Hexadecimal digits -/

theorem hex_one {n : Nat} (h : n < 16) : hex 1 n = [n.digitChar] := by
  rw [hex, Nat.toDigits_of_lt_base h]
  rfl

/-- The last digit of a number stands behind the digits of the rest. -/
theorem hex_succ {width : Nat} (hwidth : 0 < width) (n : Nat) :
    hex (width + 1) n = hex width (n / 16) ++ [(n % 16).digitChar] := by
  rcases Nat.lt_or_ge n 16 with hlt | hge
  · obtain ⟨k, rfl⟩ := Nat.exists_eq_add_of_lt hwidth
    have hzero : n / 16 = 0 := Nat.div_eq_of_lt hlt
    rw [hex, hex, hzero, Nat.toDigits_of_lt_base hlt, Nat.toDigits_zero, Nat.mod_eq_of_lt hlt]
    simp [List.replicate_succ']
  · simp [hex, Nat.toDigits_of_base_le (by decide) hge]

theorem length_hex {width n : Nat} (hwidth : 0 < width) (h : n < 16 ^ width) :
    (hex width n).length = width := by
  induction width, hwidth using Nat.le_induction generalizing n with
  | base => rw [hex_one h, List.length_singleton]
  | succ width hwidth ih =>
    have hquotient : n / 16 < 16 ^ width := Nat.div_lt_of_lt_mul (by rwa [Nat.pow_succ'] at h)
    rw [hex_succ hwidth, List.length_append, ih hquotient, List.length_singleton]

/-- The number that hexadecimal digits denote. -/
def hexNumber? (digits : List Char) : Option Nat :=
  digits.foldlM (fun n d => (hexValue? d).map (16 * n + ·)) 0

theorem hexValue?_digitChar {d : Nat} (h : d < 16) : hexValue? d.digitChar = some d := by
  have hall : ∀ d < 16, hexValue? d.digitChar = some d := by decide
  exact hall d h

/-- The digits of a number denote it. -/
theorem hexNumber?_hex {width n : Nat} (hwidth : 0 < width) (h : n < 16 ^ width) :
    hexNumber? (hex width n) = some n := by
  induction width, hwidth using Nat.le_induction generalizing n with
  | base =>
    have hlt : n < 16 := h
    simp [hexNumber?, hex_one hlt, hexValue?_digitChar hlt]
  | succ width hwidth ih =>
    have hquotient : n / 16 < 16 ^ width := Nat.div_lt_of_lt_mul (by rwa [Nat.pow_succ'] at h)
    have hlast : n % 16 < 16 := Nat.mod_lt n (by decide)
    have hrest := ih hquotient
    rw [hexNumber?] at hrest ⊢
    rw [hex_succ hwidth, List.foldlM_append, hrest]
    simp [hexValue?_digitChar hlast, Nat.div_add_mod]

theorem mem_toDigits {n : Nat} {c : Char} (h : c ∈ Nat.toDigits 16 n) :
    ∃ d < 16, c = d.digitChar := by
  induction n using Nat.strongRecOn with
  | ind n ih =>
    rcases Nat.lt_or_ge n 16 with hlt | hge
    · rw [Nat.toDigits_of_lt_base hlt, List.mem_singleton] at h
      exact ⟨n, hlt, h⟩
    · rw [Nat.toDigits_of_base_le (by decide) hge, List.mem_append, List.mem_singleton] at h
      rcases h with hfront | hlast
      · exact ih (n / 16) (Nat.div_lt_self (by omega) (by decide)) hfront
      · exact ⟨n % 16, Nat.mod_lt n (by decide), hlast⟩

theorem mem_hex {width n : Nat} {c : Char} (h : c ∈ hex width n) : ∃ d < 16, c = d.digitChar := by
  rw [hex, List.mem_append] at h
  rcases h with hzero | hdigit
  · exact ⟨0, by decide, (List.mem_replicate.1 hzero).2⟩
  · exact mem_toDigits hdigit

/-- A digit is no quote and no backslash. -/
theorem ne_of_mem_hex {width n : Nat} {c : Char} (h : c ∈ hex width n) : c ≠ '"' ∧ c ≠ '\\' := by
  have hall : ∀ d < 16, d.digitChar ≠ '"' ∧ d.digitChar ≠ '\\' := by decide
  obtain ⟨d, hd, rfl⟩ := mem_hex h
  exact hall d hd

/-! ## Reading one character -/

/-- The character that a letter after a backslash stands for. -/
def escapedChar? : Char → Option Char
  | 'a' => some (Char.ofNat 7)
  | 'b' => some (Char.ofNat 8)
  | 't' => some '\t'
  | 'n' => some '\n'
  | 'v' => some (Char.ofNat 11)
  | 'f' => some (Char.ofNat 12)
  | 'r' => some '\r'
  | '"' => some '"'
  | '\\' => some '\\'
  | _ => none

/-- How many digits follow a letter after a backslash. -/
def escapeWidth? : Char → Option Nat
  | 'x' => some 2
  | 'u' => some 4
  | 'U' => some 8
  | _ => none

theorem escapeWidth?_of_escapedChar? {c letter : Char} (h : escapedChar? letter = some c) :
    escapeWidth? letter = none := by
  unfold escapedChar? at h
  split at h <;> cases h <;> rfl

theorem escapeWidth?_eq_some {letter : Char} {width : Nat} (h : escapeWidth? letter = some width) :
    letter = 'x' ∧ width = 2 ∨ letter = 'u' ∧ width = 4 ∨ letter = 'U' ∧ width = 8 := by
  unfold escapeWidth? at h
  split at h <;> cases h <;> simp

/-- The ways to write a character between quotes. -/
inductive Spelling (c : Char) : List Char → Prop where
  /-- As it is. -/
  | plain : c ≠ '"' → c ≠ '\\' → isPrintable c = true → Spelling c [c]
  /-- By a letter. -/
  | letter {letter : Char} : escapedChar? letter = some c → Spelling c ['\\', letter]
  /-- By its code point, with two digits only below U+0080. -/
  | code {letter : Char} {width : Nat} : escapeWidth? letter = some width →
      c.toNat < 16 ^ width → (letter = 'x' → c.toNat < 0x80) →
      Spelling c ('\\' :: letter :: hex width c.toNat)

theorem controlLetter?_eq_some {c letter : Char} (h : controlLetter? c = some letter) :
    escapedChar? letter = some c := by
  have hc : Char.ofNat c.toNat = c := Char.ofNat_toNat c
  rw [controlLetter?] at h
  split at h <;> cases h <;> rename_i heq <;> rw [← hc, heq] <;> rfl

theorem toNat_lt_limit (c : Char) : c.toNat < 16 ^ 8 := by
  have hvalid : c.toNat < 0xd800 ∨ 0xdfff < c.toNat ∧ c.toNat < 0x110000 := c.valid
  omega

theorem spelling_quoteChar (c : Char) : Spelling c (quoteChar c) := by
  rw [quoteChar]
  split
  · next hescape =>
    simp only [Bool.or_eq_true, decide_eq_true_eq] at hescape
    rcases hescape with rfl | rfl
    · exact .letter rfl
    · exact .letter rfl
  next hescape =>
  simp only [Bool.or_eq_true, decide_eq_true_eq, not_or] at hescape
  split
  · next hprintable => exact .plain hescape.1 hescape.2 hprintable
  · cases hletter : controlLetter? c with
    | some letter => exact .letter (controlLetter?_eq_some hletter)
    | none =>
      dsimp only
      split
      · next hascii => exact .code rfl (Nat.lt_of_lt_of_le hascii (by decide)) fun _ => hascii
      · split
        · next hplane => exact .code rfl hplane nofun
        · exact .code rfl (toNat_lt_limit c) nofun

/-- Reads one character of a quoted text.  The closing quote and a newline are none. -/
def unquoteChar? : List Char → Option (Char × List Char)
  | [] => none
  | '\\' :: letter :: cs =>
    match escapeWidth? letter with
    | some width =>
      match hexNumber? (cs.take width) with
      | some n =>
        if (cs.take width).length = width ∧ n.isValidChar then some (Char.ofNat n, cs.drop width)
        else none
      | none => none
    | none => (escapedChar? letter).map (·, cs)
  | c :: cs => if c = '"' ∨ c = '\\' ∨ c = '\n' then none else some (c, cs)

theorem unquoteChar?_plain {c : Char} (hquote : c ≠ '"') (hslash : c ≠ '\\') (hline : c ≠ '\n')
    (cs : List Char) : unquoteChar? (c :: cs) = some (c, cs) := by
  rw [unquoteChar?]
  · simp [hquote, hslash, hline]
  · intro letter cs' hcons
    exact absurd hcons hslash

theorem unquoteChar?_letter {c letter : Char} (hletter : escapedChar? letter = some c)
    (cs : List Char) : unquoteChar? ('\\' :: letter :: cs) = some (c, cs) := by
  rw [unquoteChar?, escapeWidth?_of_escapedChar? hletter, hletter]
  rfl

/-- A character by its code point. -/
theorem unquoteChar?_hex {c letter : Char} {width : Nat}
    (hletter : escapeWidth? letter = some width) (hc : c.toNat < 16 ^ width) (cs : List Char) :
    unquoteChar? ('\\' :: letter :: (hex width c.toNat ++ cs)) = some (c, cs) := by
  have hwidth : 0 < width := by
    have := escapeWidth?_eq_some hletter
    omega
  have hlength : (hex width c.toNat).length = width := length_hex hwidth hc
  have htake : (hex width c.toNat ++ cs).take width = hex width c.toNat := List.take_left' hlength
  have hdrop : (hex width c.toNat ++ cs).drop width = cs := List.drop_left' hlength
  simp only [unquoteChar?, hletter, htake, hdrop, hexNumber?_hex hwidth hc, hlength, true_and]
  rw [if_pos (show c.toNat.isValidChar from c.valid), Char.ofNat_toNat]

theorem not_isPrintable_newline : isPrintable '\n' = false := rfl

/-- What is written for a character is read back. -/
theorem unquoteChar?_quoteChar (c : Char) (cs : List Char) :
    unquoteChar? (quoteChar c ++ cs) = some (c, cs) := by
  have hspelling := spelling_quoteChar c
  generalize quoteChar c = text at hspelling
  cases hspelling with
  | plain hquote hslash hprintable =>
    refine unquoteChar?_plain hquote hslash ?_ cs
    rintro rfl
    rw [not_isPrintable_newline] at hprintable
    cases hprintable
  | letter hletter => exact unquoteChar?_letter hletter cs
  | code hletter hc _ => exact unquoteChar?_hex hletter hc cs

/-! ## Quoted texts -/

/-- No character is written as the closing quote or starts with it. -/
theorem quoteChar_append_ne (c : Char) (r s : List Char) : quoteChar c ++ r ≠ '"' :: s := by
  intro h
  have hread := unquoteChar?_quoteChar c r
  rw [h] at hread
  cases hread

theorem quoteChar_cancel {c d : Char} {r s : List Char} (h : quoteChar c ++ r = quoteChar d ++ s) :
    c = d ∧ r = s := by
  have hread := unquoteChar?_quoteChar c r
  rw [h, unquoteChar?_quoteChar d s, Option.some.injEq, Prod.mk.injEq] at hread
  exact ⟨hread.1.symm, hread.2.symm⟩

/-- The text before a closing quote is the only one. -/
theorem flatMap_quoteChar_cancel {cs ds r s : List Char}
    (h : cs.flatMap quoteChar ++ '"' :: r = ds.flatMap quoteChar ++ '"' :: s) :
    cs = ds ∧ r = s := by
  induction cs generalizing ds with
  | nil =>
    cases ds with
    | nil => exact ⟨rfl, (List.cons.inj h).2⟩
    | cons d ds =>
      rw [List.flatMap_cons, List.append_assoc] at h
      exact absurd h.symm (quoteChar_append_ne d _ _)
  | cons c cs ih =>
    cases ds with
    | nil =>
      rw [List.flatMap_cons, List.append_assoc] at h
      exact absurd h (quoteChar_append_ne c _ _)
    | cons d ds =>
      simp only [List.flatMap_cons, List.append_assoc] at h
      obtain ⟨rfl, hrest⟩ := quoteChar_cancel h
      obtain ⟨rfl, rfl⟩ := ih hrest
      exact ⟨rfl, rfl⟩

/-- A quoted text at the front of a text is the only one. -/
theorem quote_cancel {a b : String} {r s : List Char}
    (h : (quote a).toList ++ r = (quote b).toList ++ s) : a = b ∧ r = s := by
  simp only [quote, quoteChars, String.toList_ofList, List.cons_append, List.append_assoc,
    List.nil_append, List.cons.injEq, true_and] at h
  obtain ⟨htext, rfl⟩ := flatMap_quoteChar_cancel h
  exact ⟨String.toList_inj.1 htext, rfl⟩

/-! ## Printable characters -/

theorem isPrintable_digitChar {d : Nat} (h : d < 16) : isPrintable d.digitChar = true := by
  have hall : ∀ d < 16, isPrintable d.digitChar = true := by decide
  exact hall d h

/-- A character is written with printable characters. -/
theorem isPrintable_of_mem_quoteChar {c d : Char} (h : d ∈ quoteChar c) :
    isPrintable d = true := by
  have hspelling := spelling_quoteChar c
  generalize quoteChar c = text at hspelling h
  cases hspelling with
  | plain _ _ hprintable => rwa [List.mem_singleton.1 h]
  | @letter letter hletter =>
    have hprintable : isPrintable letter = true := by
      unfold escapedChar? at hletter
      split at hletter <;> cases hletter <;> rfl
    simp only [List.mem_cons, List.not_mem_nil, or_false] at h
    rcases h with rfl | rfl
    · rfl
    · exact hprintable
  | @code letter width hletter _ _ =>
    rw [List.mem_cons, List.mem_cons] at h
    rcases h with rfl | rfl | h
    · rfl
    · rcases escapeWidth?_eq_some hletter with ⟨rfl, -⟩ | ⟨rfl, -⟩ | ⟨rfl, -⟩ <;> rfl
    · obtain ⟨k, hk, rfl⟩ := mem_hex h
      exact isPrintable_digitChar hk

/-- A quoted text consists of printable characters. -/
theorem isPrintable_of_mem_quote {s : String} {d : Char} (h : d ∈ (quote s).toList) :
    isPrintable d = true := by
  simp only [quote, quoteChars, String.toList_ofList, List.cons_append, List.mem_cons,
    List.mem_append, List.mem_flatMap, List.not_mem_nil, or_false] at h
  rcases h with rfl | ⟨c, -, hc⟩ | rfl
  · rfl
  · exact isPrintable_of_mem_quoteChar hc
  · rfl

end Scaffold.Text
