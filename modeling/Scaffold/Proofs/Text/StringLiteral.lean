import Scaffold.Proofs.Text.Quoted

/-!
# String literals of Go

A string literal stands between double quotes and denotes a row of bytes.  A
character that is not a quote, a backslash or a newline denotes its bytes in
UTF-8.  A backslash starts an escape: a letter for a character, two hexadecimal
or three octal digits for a byte, and four or eight hexadecimal digits for the
bytes of a code point.  `readLiteral?` reads the literal at the front of a text up
to the quote that closes it.

* `isLiteral_quote`: a quoted text is a literal for the text that was quoted.  It
  holds no control character, its only bare quotes are the first and the last
  character, and it is read up to its end in front of any text.
* `IsLiteral.inj`: a literal is a literal for one text only.
-/

namespace Scaffold.Text

/-! ## Reading literals -/

/-- The number that octal digits denote. -/
def octalNumber? (digits : List Char) : Option Nat :=
  digits.foldlM (fun n d => if '0' ≤ d ∧ d ≤ '7' then some (8 * n + (d.toNat - 48)) else none) 0

/-- The bytes of a code point, if there is a character with it. -/
def codePointBytes? (n : Nat) : Option (List UInt8) :=
  if n.isValidChar then some (String.utf8EncodeChar (Char.ofNat n)) else none

/-- The bytes of an escape with hexadecimal digits: two of them give a byte, and more of them a code
point. -/
def hexBytes? (digits : List Char) : Option (List UInt8) :=
  (hexNumber? digits).bind fun n =>
    if digits.length = 2 then some [UInt8.ofNat n] else codePointBytes? n

/-- The byte of an escape with octal digits. -/
def octalBytes? (digits : List Char) : Option (List UInt8) :=
  (octalNumber? digits).bind fun n => if n < 256 then some [UInt8.ofNat n] else none

/-- Reads an escape with a number of digits. -/
def readDigits? (bytes? : List Char → Option (List UInt8)) (width : Nat) (cs : List Char) :
    Option (List UInt8 × List Char) :=
  if width ≤ cs.length then (bytes? (cs.take width)).map (·, cs.drop width) else none

/-- Reads one character or escape inside a literal.  A bare quote and a newline are none. -/
def readUnit? : List Char → Option (List UInt8 × List Char)
  | [] => none
  | '\\' :: cs => match cs with
    | [] => none
    | letter :: rest => match escapedChar? letter with
      | some c => some (String.utf8EncodeChar c, rest)
      | none => match escapeWidth? letter with
        | some width => readDigits? hexBytes? width rest
        | none => readDigits? octalBytes? 3 cs
  | c :: cs => if c = '"' ∨ c = '\n' then none else some (String.utf8EncodeChar c, cs)

theorem length_readDigits? {bytes? : List Char → Option (List UInt8)} {width : Nat}
    {cs rest : List Char} {bytes : List UInt8}
    (h : readDigits? bytes? width cs = some (bytes, rest)) : rest.length ≤ cs.length := by
  rw [readDigits?] at h
  split at h
  · obtain ⟨bytes', -, heq⟩ := Option.map_eq_some_iff.1 h
    cases heq
    rw [List.length_drop]
    exact Nat.sub_le ..
  · cases h

/-- What is left is shorter. -/
theorem length_readUnit? {cs rest : List Char} {bytes : List UInt8}
    (h : readUnit? cs = some (bytes, rest)) : rest.length < cs.length := by
  unfold readUnit? at h
  split at h
  · cases h
  · split at h
    · cases h
    · next letter tail =>
      simp only [List.length_cons]
      split at h
      · cases h
        omega
      · split at h
        · have := length_readDigits? h
          omega
        · have := length_readDigits? h
          rw [List.length_cons] at this
          omega
  · split at h
    · cases h
    · cases h
      exact Nat.lt_succ_self _

/-- Reads the inside of a literal and the quote that closes it. -/
def readInside? (cs : List Char) : Option (List UInt8 × List Char) :=
  if cs.head? = some '"' then some ([], cs.tail)
  else match _hread : readUnit? cs with
    | none => none
    | some (bytes, rest) => (readInside? rest).map fun r => (bytes ++ r.1, r.2)
termination_by cs.length
decreasing_by exact length_readUnit? _hread

/-- Reads the literal at the front of a text: its bytes, and what follows it. -/
def readLiteral? : List Char → Option (List UInt8 × List Char)
  | '"' :: cs => readInside? cs
  | _ => none

/-! ## Literals -/

/-- Whether a character is a control character. -/
def isControl (c : Char) : Bool := c.toNat < 0x20 || 0x7F ≤ c.toNat && c.toNat < 0xA0

/-- Whether every quote in a text is escaped, and no backslash is left alone at its end. -/
def isGuarded : List Char → Bool
  | [] => true
  | ['\\'] => false
  | '\\' :: _ :: cs => isGuarded cs
  | c :: cs => c ≠ '"' && isGuarded cs

/-- A text is a string literal for a value. -/
structure IsLiteral (text value : String) : Prop where
  /-- It stands between quotes, and the quotes inside are escaped. -/
  quoted : ∃ inside, text.toList = '"' :: (inside ++ ['"']) ∧ isGuarded inside = true
  /-- It holds no control characters. -/
  printed : ∀ c ∈ text.toList, isControl c = false
  /-- It is read up to its end, and denotes the value in UTF-8. -/
  read : ∀ rest, readLiteral? (text.toList ++ rest) = some (value.toUTF8.data.toList, rest)

theorem toUTF8_eq_flatMap (s : String) :
    s.toUTF8.data.toList = s.toList.flatMap String.utf8EncodeChar := by
  rw [String.toUTF8_eq_toByteArray, ← String.utf8Encode_toList, List.utf8Encode,
    List.data_toByteArray]

/-- A text is a literal for one value only. -/
theorem IsLiteral.inj {text s t : String} (hs : IsLiteral text s) (ht : IsLiteral text t) :
    s = t := by
  have hread := (hs.read []).symm.trans (ht.read [])
  rw [Option.some.injEq, Prod.mk.injEq, Array.toList_inj, ByteArray.ext_iff.symm,
    String.toUTF8_eq_toByteArray, String.toUTF8_eq_toByteArray, String.toByteArray_inj] at hread
  exact hread.1

/-! ## Quoted texts are literals -/

theorem readDigits?_hex {bytes? : List Char → Option (List UInt8)} {width n : Nat}
    (hwidth : 0 < width) (hn : n < 16 ^ width) (cs : List Char) :
    readDigits? bytes? width (hex width n ++ cs) = (bytes? (hex width n)).map (·, cs) := by
  have hlength : (hex width n).length = width := length_hex hwidth hn
  rw [readDigits?, if_pos (by rw [List.length_append]; omega), List.take_left' hlength,
    List.drop_left' hlength]

theorem utf8EncodeChar_of_lt {c : Char} (h : c.toNat < 0x80) :
    String.utf8EncodeChar c = [UInt8.ofNat c.toNat] := by
  have hle : c.val.toNat ≤ 127 := Nat.le_of_lt_succ h
  simp only [String.utf8EncodeChar, hle, if_true]
  rfl

theorem codePointBytes?_toNat (c : Char) :
    codePointBytes? c.toNat = some (String.utf8EncodeChar c) := by
  rw [codePointBytes?, if_pos (show c.toNat.isValidChar from c.valid), Char.ofNat_toNat]

/-- The digits of a code point denote its bytes.  Two digits denote one byte, which is the code
point itself below U+0080. -/
theorem hexBytes?_hex {c letter : Char} {width : Nat} (hletter : escapeWidth? letter = some width)
    (hc : c.toNat < 16 ^ width) (hascii : letter = 'x' → c.toNat < 0x80) :
    hexBytes? (hex width c.toNat) = some (String.utf8EncodeChar c) := by
  have hwidth := escapeWidth?_eq_some hletter
  have hpos : 0 < width := by omega
  rw [hexBytes?, hexNumber?_hex hpos hc, Option.bind_some, length_hex hpos hc]
  split
  · next htwo =>
    have hx : letter = 'x' := by
      rcases hwidth with ⟨hx, -⟩ | ⟨-, hfour⟩ | ⟨-, height⟩
      · exact hx
      · omega
      · omega
    rw [utf8EncodeChar_of_lt (hascii hx)]
  · exact codePointBytes?_toNat c

/-- What is written for a character denotes its bytes. -/
theorem readUnit?_quoteChar (c : Char) (cs : List Char) :
    readUnit? (quoteChar c ++ cs) = some (String.utf8EncodeChar c, cs) := by
  have hspelling := spelling_quoteChar c
  generalize quoteChar c = text at hspelling
  cases hspelling with
  | plain hquote hslash hprintable =>
    have hline : c ≠ '\n' := by
      rintro rfl
      rw [not_isPrintable_newline] at hprintable
      cases hprintable
    rw [List.singleton_append, readUnit?]
    · simp [hquote, hline]
    · exact hslash
  | letter hletter =>
    simp only [List.cons_append, List.nil_append, readUnit?, hletter]
  | @code letter width hletter hc hascii =>
    have hwidth := escapeWidth?_eq_some hletter
    have hescaped : escapedChar? letter = none := by
      rcases hwidth with ⟨rfl, -⟩ | ⟨rfl, -⟩ | ⟨rfl, -⟩ <;> rfl
    simp only [List.cons_append, readUnit?, hescaped, hletter]
    rw [readDigits?_hex (by omega) hc, hexBytes?_hex hletter hc hascii, Option.map_some]

theorem readInside?_quoted (cs rest : List Char) :
    readInside? (cs.flatMap quoteChar ++ '"' :: rest)
      = some (cs.flatMap String.utf8EncodeChar, rest) := by
  induction cs with
  | nil =>
    rw [readInside?, List.flatMap_nil, List.nil_append, List.head?_cons, if_pos rfl]
    rfl
  | cons c cs ih =>
    rw [List.flatMap_cons, List.append_assoc, readInside?, if_neg, readUnit?_quoteChar]
    · simp only [ih, Option.map_some, List.flatMap_cons]
    · intro hhead
      obtain ⟨tail, htail⟩ := List.head?_eq_some_iff.1 hhead
      exact quoteChar_append_ne c _ _ htail

theorem isGuarded_plain {s : List Char} (h : ∀ c ∈ s, c ≠ '"' ∧ c ≠ '\\') (r : List Char) :
    isGuarded (s ++ r) = isGuarded r := by
  induction s with
  | nil => rfl
  | cons c s ih =>
    rw [List.forall_mem_cons] at h
    rw [List.cons_append, isGuarded, ih h.2]
    · simp [h.1.1]
    · exact fun hslash _ => h.1.2 hslash
    · exact fun _ _ hslash _ => h.1.2 hslash

/-- What is written for a character leaves no bare quote. -/
theorem isGuarded_quoteChar (c : Char) (r : List Char) :
    isGuarded (quoteChar c ++ r) = isGuarded r := by
  have hspelling := spelling_quoteChar c
  generalize quoteChar c = text at hspelling
  cases hspelling with
  | plain hquote hslash _ =>
    exact isGuarded_plain (List.forall_mem_singleton.2 ⟨hquote, hslash⟩) r
  | letter _ => rfl
  | code _ _ _ => exact isGuarded_plain (fun _ => ne_of_mem_hex) r

theorem isGuarded_quoted (cs : List Char) : isGuarded (cs.flatMap quoteChar) = true := by
  induction cs with
  | nil => rfl
  | cons c cs ih => rw [List.flatMap_cons, isGuarded_quoteChar, ih]

/-- The table of printable characters has no control character. -/
theorem isControl_of_isPrintable {c : Char} (h : isPrintable c = true) : isControl c = false := by
  have htable : printableRanges.all (fun r => r.2 ≤ 0x7E || 0xA0 ≤ r.1) = true := by
    decide +kernel
  simp only [isPrintable] at h
  simp only [isControl, Bool.or_eq_false_iff, Bool.and_eq_false_iff, decide_eq_false_iff_not]
  split at h
  · have := of_decide_eq_true h
    omega
  · obtain ⟨r, hr, hin⟩ := List.any_eq_true.1 h
    have hrange := List.all_eq_true.1 htable r hr
    simp only [Bool.or_eq_true, Bool.and_eq_true, decide_eq_true_eq] at hin hrange
    omega

/-- A quoted text is a literal for the text that was quoted. -/
theorem isLiteral_quote (s : String) : IsLiteral (quote s) s where
  quoted := ⟨s.toList.flatMap quoteChar, by rw [quote, String.toList_ofList, quoteChars]; rfl,
    isGuarded_quoted s.toList⟩
  printed := fun _ hc => isControl_of_isPrintable (isPrintable_of_mem_quote hc)
  read := fun rest => by
    rw [quote, String.toList_ofList, quoteChars, toUTF8_eq_flatMap, List.cons_append,
      List.cons_append, readLiteral?, List.append_assoc]
    exact readInside?_quoted s.toList rest

end Scaffold.Text
