import Scaffold.Json.Quoted
import Scaffold.Proofs.Json.Scan

/-!
# Texts of tokens

Every token that can occur in a document is written in one way: the marks and
the words as they stand, a string by `quoteChar`, and a number by its digits,
with an exponent unless the number is plain.

`Token.next?_text` says that the scanner finds a token again in front of any
text that does not go on with it.  Only numbers can go on.
-/

namespace Scaffold

namespace Json

/-! ## Strings -/

/-- The piece that a quoted character is read as. -/
def pieceOf (c : Char) : Piece :=
  if c = '"' || c = '\\' || c = '\n' || c = '\r' || c = '\t' then .escape c
  else if c.toNat < 0x20 || c.toNat == 0x2028 || c.toNat == 0x2029 then .unit c.toNat
  else .char c

/-- Four hexadecimal digits are read back as the number they were written for. -/
theorem hex_unit {n : Nat} (h : n < 0x20 ∨ n = 0x2028 ∨ n = 0x2029) :
    ∃ a b c d, Text.hex 4 n = [a, b, c, d] ∧ hexUnit? a b c d = some n := by
  have hcontrol : ∀ n < 0x20, Text.hex 4 n = ['0', '0', (n / 16).digitChar, (n % 16).digitChar] ∧
      hexUnit? '0' '0' (n / 16).digitChar (n % 16).digitChar = some n := by
    decide
  rcases h with h | rfl | rfl
  · exact ⟨_, _, _, _, hcontrol n h⟩
  · exact ⟨'2', '0', '2', '8', by decide, by decide⟩
  · exact ⟨'2', '0', '2', '9', by decide, by decide⟩

theorem readPieces?_escape {c letter : Char} (hu : letter ≠ 'u')
    (hc : shortEscape? letter = some c) (cs : List Char) :
    readPieces? ('\\' :: letter :: cs)
      = (readPieces? cs).map fun (pieces, rest) => (.escape c :: pieces, rest) := by
  rw [readPieces?, hc]
  · cases readPieces? cs <;> rfl
  · exact fun _ _ _ _ _ h _ => hu h

theorem readPieces?_unit {n : Nat} {a b c d : Char} (h : hexUnit? a b c d = some n)
    (cs : List Char) :
    readPieces? ('\\' :: 'u' :: a :: b :: c :: d :: cs)
      = (readPieces? cs).map fun (pieces, rest) => (.unit n :: pieces, rest) := by
  rw [readPieces?, h]
  cases readPieces? cs <;> rfl

theorem readPieces?_char {c : Char} (hquote : c ≠ '"') (hslash : c ≠ '\\')
    (hcontrol : ¬ c.toNat < 0x20) (cs : List Char) :
    readPieces? (c :: cs)
      = (readPieces? cs).map fun (pieces, rest) => (.char c :: pieces, rest) := by
  have hc : ¬ c < ' ' := hcontrol
  rw [readPieces?]
  · rw [if_neg hc]
    cases readPieces? cs <;> rfl
  · exact hquote
  · exact fun _ _ _ _ _ h _ => hslash h
  · exact fun _ _ h _ => hslash h

/-- A quoted character is one piece. -/
theorem readPieces?_quoteChar (c : Char) (cs : List Char) :
    readPieces? (quoteChar c ++ cs)
      = (readPieces? cs).map fun (pieces, rest) => (pieceOf c :: pieces, rest) := by
  rw [quoteChar, pieceOf]
  by_cases hshort : c = '"' ∨ c = '\\' ∨ c = '\n' ∨ c = '\r' ∨ c = '\t'
  · rcases hshort with rfl | rfl | rfl | rfl | rfl
    all_goals exact readPieces?_escape (by decide) (by decide) cs
  · obtain ⟨hquote, hslash, hnewline, hreturn, htab⟩ := by simpa only [not_or] using hshort
    by_cases hunit : c.toNat < 0x20 ∨ c.toNat = 0x2028 ∨ c.toNat = 0x2029
    · obtain ⟨x, y, z, w, hhex, hread⟩ := hex_unit hunit
      simp only [hquote, hslash, hnewline, hreturn, htab, decide_false, Bool.or_self,
        Bool.false_eq_true, if_false, Bool.or_eq_true, decide_eq_true_eq, beq_iff_eq, or_assoc,
        hunit, if_true, hhex]
      exact readPieces?_unit hread cs
    · simp only [hquote, hslash, hnewline, hreturn, htab, decide_false, Bool.or_self,
        Bool.false_eq_true, if_false, Bool.or_eq_true, decide_eq_true_eq, beq_iff_eq, or_assoc,
        hunit]
      exact readPieces?_char hquote hslash (fun h => hunit (.inl h)) cs

theorem readPieces?_quoted (cs rest : List Char) :
    readPieces? (cs.flatMap quoteChar ++ '"' :: rest) = some (cs.map pieceOf, rest) := by
  induction cs with
  | nil => rfl
  | cons c cs ih =>
    rw [List.flatMap_cons, List.append_assoc, readPieces?_quoteChar, ih]
    rfl

theorem joinPieces_pieceOf (cs : List Char) : joinPieces none (cs.map pieceOf) = cs := by
  induction cs with
  | nil => rfl
  | cons c cs ih =>
    rw [List.map_cons, pieceOf]
    split_ifs with hshort hunit
    · rw [joinPieces, ih]
    · have hhigh : isHighUnit c.toNat = false := by
        simp [isHighUnit] at hunit ⊢
        omega
      have hlow : isLowUnit c.toNat = false := by
        simp [isLowUnit] at hunit ⊢
        omega
      simp only [joinPieces, hhigh, hlow, Bool.false_eq_true, if_false, Char.ofNat_toNat, ih]
    · rw [joinPieces, ih]

/-- How many characters the escapes of a quoted text take beyond those that they stand for. -/
def quotedSurplus (s : String) : Nat := piecesWidth (s.toList.map pieceOf) - s.toList.length

/-- A quoted text is read back. -/
theorem readString?_quoted (s : String) (rest : List Char) :
    readString? (s.toList.flatMap quoteChar ++ '"' :: rest)
      = some (.string s (quotedSurplus s), rest) := by
  simp only [readString?, readPieces?_quoted, Option.bind_eq_bind, Option.bind_some,
    joinPieces_pieceOf, String.ofList_toList, quotedSurplus]

/-! ## Numbers -/

/-- A text that does not go on with the number in front of it. -/
def EndsNumber (rest : List Char) : Prop :=
  ∀ c ∈ rest.head?, isDigit c = false ∧ c ≠ '.' ∧ c ≠ 'e' ∧ c ≠ 'E'

theorem takeWhile_digits {ds rest : List Char} (hds : ∀ c ∈ ds, isDigit c = true)
    (hrest : ∀ c ∈ rest.head?, isDigit c = false) :
    (ds ++ rest).takeWhile isDigit = ds ∧ (ds ++ rest).dropWhile isDigit = rest := by
  rw [List.takeWhile_append_of_pos hds, List.dropWhile_append_of_pos hds]
  cases rest with
  | nil => simp
  | cons c rest => simp [hrest c rfl]

theorem isDigit_toDigits {n : Nat} {c : Char} (h : c ∈ Nat.toDigits 10 n) : isDigit c = true :=
  Nat.isDigit_of_mem_toDigits (by decide) (by decide) h

theorem readDigits?_toDigits (n : Nat) {rest : List Char}
    (hrest : ∀ c ∈ rest.head?, isDigit c = false) :
    readDigits? (Nat.toDigits 10 n ++ rest) = some (Nat.toDigits 10 n, rest) := by
  obtain ⟨htake, hdrop⟩ := takeWhile_digits (fun c hc => isDigit_toDigits hc) hrest
  rw [readDigits?, htake, hdrop]
  cases h : Nat.toDigits 10 n with
  | nil => exact absurd h Nat.toDigits_ne_nil
  | cons d ds => rfl

theorem digitsValue_toDigits (n : Nat) : digitsValue (Nat.toDigits 10 n) = n := by
  have h := Nat.ofDigitChars_ten_toDigits (n := n)
  simp only [Nat.ofDigitChars_eq_foldl, Nat.mul_comm 10] at h
  exact h

/-- The digits of a number start with a digit. -/
theorem toDigits_cons (n : Nat) : ∃ d ds, Nat.toDigits 10 n = d :: ds ∧ isDigit d = true := by
  cases h : Nat.toDigits 10 n with
  | nil => exact absurd h Nat.toDigits_ne_nil
  | cons d ds => exact ⟨d, ds, rfl, isDigit_toDigits (h ▸ List.mem_cons_self)⟩

theorem head?_toDigits {n : Nat} (hn : 0 < n) : (Nat.toDigits 10 n).head? ≠ some '0' := by
  induction n using Nat.strongRecOn with
  | ind n ih =>
    rcases Nat.lt_or_ge n 10 with hlt | hge
    · have hdigit : ∀ n < 10, 0 < n → n.digitChar ≠ '0' := by decide
      rw [Nat.toDigits_of_lt_base hlt, List.head?_cons, ne_eq, Option.some.injEq]
      exact hdigit n hlt hn
    · have hfront := ih (n / 10) (Nat.div_lt_self hn (by decide)) (Nat.div_pos hge (by decide))
      obtain ⟨d, ds, hcons, -⟩ := toDigits_cons (n / 10)
      rw [Nat.toDigits_of_base_le (by decide) hge]
      rw [hcons] at hfront ⊢
      exact hfront

/-- Only zero is written with a leading zero. -/
theorem toDigits_leading (n : Nat) :
    ¬ ((Nat.toDigits 10 n).head? = some '0' ∧ (Nat.toDigits 10 n).length ≠ 1) := by
  rintro ⟨hhead, hlength⟩
  rcases Nat.eq_zero_or_pos n with rfl | hn
  · exact hlength rfl
  · exact head?_toDigits hn hhead

theorem ne_of_isDigit {c d : Char} (hc : isDigit c = true) (hd : isDigit d = false) : c ≠ d := by
  rintro rfl
  rw [hc] at hd
  cases hd

/-- A power of ten after its letter. -/
def exponentText (e : Int) : List Char :=
  if e < 0 then '-' :: Nat.toDigits 10 e.natAbs else Nat.toDigits 10 e.natAbs

theorem readSignedDigits?_exponentText (e : Int) {rest : List Char}
    (hrest : ∀ c ∈ rest.head?, isDigit c = false) :
    readSignedDigits? (exponentText e ++ rest) = some (e, rest) := by
  have hdigits := readDigits?_toDigits e.natAbs hrest
  rw [exponentText]
  split
  · next hneg =>
    simp only [List.cons_append, readSignedDigits?, hdigits, Option.bind_eq_bind, Option.bind_some,
      digitsValue_toDigits]
    rw [show -(e.natAbs : Int) = e by omega]
  · next hnonneg =>
    obtain ⟨d, ds, hcons, hd⟩ := toDigits_cons e.natAbs
    rw [readSignedDigits?, hdigits]
    · simp only [Option.bind_eq_bind, Option.bind_some, digitsValue_toDigits]
      rw [show (e.natAbs : Int) = e by omega]
    · rw [hcons]
      exact fun _ h => ne_of_isDigit hd (by decide) (List.cons.inj h).1
    · rw [hcons]
      exact fun _ h => ne_of_isDigit hd (by decide) (List.cons.inj h).1

end Json

/-- A number that some text denotes: a plain one has no power of ten. -/
def Numeral.Writable (n : Numeral) : Prop := n.plain = true → n.exponent = 0

/-- The text of a number. -/
def Numeral.text (n : Numeral) : List Char :=
  let digits := Nat.toDigits 10 n.coefficient ++
    if n.plain then [] else 'e' :: Json.exponentText n.exponent
  if n.negative then '-' :: digits else digits

namespace Json

theorem readFraction?_none {cs : List Char} (h : ∀ c ∈ cs.head?, c ≠ '.') :
    readFraction? cs = some (none, cs) := by
  rw [readFraction?]
  rintro cs rfl
  exact h '.' rfl rfl

theorem readExponent?_none {cs : List Char} (h : ∀ c ∈ cs.head?, c ≠ 'e' ∧ c ≠ 'E') :
    readExponent? cs = some (none, cs) := by
  rw [readExponent?]
  · rintro cs rfl
    exact (h 'e' rfl).1 rfl
  · rintro cs rfl
    exact (h 'E' rfl).2 rfl

theorem readUnsigned?_text {n : Numeral} (hn : n.Writable) {rest : List Char}
    (hrest : EndsNumber rest) :
    readUnsigned? n.negative (Nat.toDigits 10 n.coefficient ++
        (if n.plain then [] else 'e' :: exponentText n.exponent) ++ rest) = some (n, rest) := by
  obtain ⟨negative, coefficient, exponent, plain⟩ := n
  have hleading := toDigits_leading coefficient
  cases plain with
  | true =>
    have hdigits := readDigits?_toDigits coefficient fun c hc => (hrest c hc).1
    have hfraction := readFraction?_none fun c hc => (hrest c hc).2.1
    have hexponent := readExponent?_none fun c hc => (hrest c hc).2.2
    obtain rfl : exponent = 0 := hn rfl
    simp [readUnsigned?, hdigits, hleading, hfraction, hexponent, digitsValue_toDigits]
  | false =>
    have htail : ∀ c ∈ ('e' :: (exponentText exponent ++ rest)).head?,
        isDigit c = false ∧ c ≠ '.' := by
      rintro c ⟨⟩
      decide
    have hdigits := readDigits?_toDigits coefficient fun c hc => (htail c hc).1
    have hfraction := readFraction?_none fun c hc => (htail c hc).2
    have hexponent := readSignedDigits?_exponentText exponent fun c hc => (hrest c hc).1
    simp [readUnsigned?, hdigits, hleading, hfraction, readExponent?, hexponent,
      digitsValue_toDigits]

/-- A number is read back in front of a text that does not go on with it. -/
theorem readNumeral?_text {n : Numeral} (hn : n.Writable) {rest : List Char}
    (hrest : EndsNumber rest) : readNumeral? (n.text ++ rest) = some (n, rest) := by
  have hread := readUnsigned?_text hn hrest
  rw [Numeral.text]
  cases hnegative : n.negative with
  | true =>
    rw [hnegative] at hread
    exact hread
  | false =>
    rw [hnegative] at hread
    obtain ⟨d, ds, hcons, hd⟩ := toDigits_cons n.coefficient
    simp only [Bool.false_eq_true, if_false]
    rw [readNumeral?, hread]
    rw [hcons]
    exact fun _ h => ne_of_isDigit hd (by decide) (List.cons.inj h).1

/-! ## Tokens -/

/-- The text of a token. -/
def Token.text : Token → List Char
  | .leftBrace => ['\x7b']
  | .rightBrace => ['\x7d']
  | .leftBracket => ['[']
  | .rightBracket => [']']
  | .comma => [',']
  | .colon => [':']
  | .null => ['n', 'u', 'l', 'l']
  | .bool true => ['t', 'r', 'u', 'e']
  | .bool false => ['f', 'a', 'l', 's', 'e']
  | .number n => n.text
  | .string s _ => '"' :: s.toList.flatMap quoteChar ++ ['"']

/-- A token that its text is read back as. -/
def Token.Writable : Token → Prop
  | .number n => n.Writable
  | .string s surplus => surplus = quotedSurplus s
  | _ => True

/-- A text that may stand after a token. -/
def Token.MayPrecede (rest : List Char) : Token → Prop
  | .number _ => EndsNumber rest
  | _ => True

/-- A character that a number can start with. -/
def startsNumber (c : Char) : Bool := isDigit c || c == '-'

theorem numeralText_cons (n : Numeral) : ∃ c cs, n.text = c :: cs ∧ startsNumber c = true := by
  obtain ⟨d, ds, hcons, hd⟩ := toDigits_cons n.coefficient
  rw [Numeral.text, hcons]
  cases n.negative with
  | true => exact ⟨'-', _, rfl, rfl⟩
  | false => exact ⟨d, _, rfl, by rw [startsNumber, hd, Bool.true_or]⟩

/-- What starts like a number is read as one. -/
theorem Token.next?_number {c : Char} {cs : List Char} (hc : startsNumber c = true) :
    Token.next? (c :: cs)
      = (readNumeral? (c :: cs)).map fun (numeral, rest) => (.number numeral, rest) := by
  have hne {d : Char} (hd : startsNumber d = false) : c ≠ d := by
    rintro rfl
    rw [hc] at hd
    cases hd
  unfold Token.next?
  split
  case h_11 => cases readNumeral? (c :: cs) <;> rfl
  all_goals
    rename_i heq
    exact absurd (List.cons.inj heq).1 (hne (by decide))

/-- The scanner finds a token again. -/
theorem Token.next?_text {token : Token} (h : token.Writable) {rest : List Char}
    (hrest : token.MayPrecede rest) : Token.next? (token.text ++ rest) = some (token, rest) := by
  cases token with
  | bool b => cases b <;> rfl
  | number n =>
    obtain ⟨c, cs, hcons, hc⟩ := numeralText_cons n
    have hread := readNumeral?_text h hrest
    rw [hcons, List.cons_append] at hread
    rw [Token.text, hcons, List.cons_append, Token.next?_number hc, hread]
    rfl
  | string s surplus =>
    obtain rfl : surplus = quotedSurplus s := h
    have hread := readString?_quoted s rest
    simpa [Token.text, Token.next?] using hread
  | _ => rfl

/-- The text of a token does not start with a separator. -/
theorem Token.text_cons (token : Token) : ∃ c cs, token.text = c :: cs ∧ isSpace c = false := by
  cases token with
  | bool b => cases b <;> exact ⟨_, _, rfl, by decide⟩
  | number n =>
    obtain ⟨c, cs, hcons, hc⟩ := numeralText_cons n
    refine ⟨c, cs, hcons, ?_⟩
    cases hspace : isSpace c with
    | false => rfl
    | true =>
      simp only [isSpace, Bool.or_eq_true, decide_eq_true_eq] at hspace
      obtain ((rfl | rfl) | rfl) | rfl := hspace
      all_goals cases hc
  | _ => exact ⟨_, _, rfl, by decide⟩

/-- A list of tokens whose texts can stand one after the other. -/
inductive Token.Lexable : List Token → Prop where
  | nil : Lexable []
  | cons {token : Token} {tokens : List Token} : token.Writable →
      token.MayPrecede (tokens.flatMap Token.text) → Lexable tokens → Lexable (token :: tokens)

theorem Token.scanWithin_mono {fuel fuel' : Nat} {cs : List Char} {tokens : List Token}
    (hfuel : fuel ≤ fuel') (h : Token.scanWithin fuel cs = some tokens) :
    Token.scanWithin fuel' cs = some tokens := by
  induction fuel generalizing fuel' cs tokens with
  | zero =>
    cases cs with
    | nil => cases fuel' <;> exact h
    | cons c cs => cases h
  | succ fuel ih =>
    obtain ⟨fuel', rfl⟩ := Nat.exists_eq_add_of_le' hfuel
    rw [← Nat.add_assoc]
    cases cs with
    | nil => exact h
    | cons c cs =>
      rw [Token.scanWithin] at h ⊢
      split
      · next hspace =>
        rw [if_pos hspace] at h
        exact ih (by omega) h
      · next hspace =>
        rw [if_neg hspace] at h
        simp only [Option.bind_eq_bind, Option.bind_eq_some_iff] at h ⊢
        obtain ⟨result, hnext, tokens', hscan, htokens⟩ := h
        exact ⟨result, hnext, tokens', ih (by omega) hscan, htokens⟩

/-- The tokens of a document are found again. -/
theorem Token.scan?_text {tokens : List Token} (h : Token.Lexable tokens) :
    Token.scan? (tokens.flatMap Token.text) = some tokens := by
  induction h with
  | nil => rfl
  | @cons token tokens hwritable hfollow _ ih =>
    have hnext := Token.next?_text hwritable hfollow
    obtain ⟨c, cs, hcons, hspace⟩ := token.text_cons
    rw [hcons, List.cons_append] at hnext
    rw [Token.scan?, List.flatMap_cons, hcons, List.cons_append, List.length_cons,
      Token.scanWithin_token hspace hnext, Option.map_eq_some_iff]
    exact ⟨tokens, Token.scanWithin_mono (by rw [List.length_append]; omega) ih, rfl⟩

end Json

end Scaffold
