import Scaffold.Proofs.Json.TokenText

/-!
# Writing JSON

A JSON value is written without separators, from its tokens.  Reading the text
gives the value back if and only if its arrays and objects nest no deeper than
the reader allows (`read?_text`).

What can be written are the values that some document has: the numbers are those
that a text denotes, and the keys take the room that their escapes need
(`Json.Writable`).
-/

namespace Scaffold.Json

/-- A key with the room that its escapes need. -/
def Key.written (text : String) : Key := ⟨text, quotedSurplus text⟩

/-- A value that the reader finds in its text. -/
inductive Writable : Json → Prop where
  | null : Writable .null
  | bool {b : Bool} : Writable (.bool b)
  | number {n : Numeral} : n.Writable → Writable (.number n)
  | string {s : String} : Writable (.string s)
  | array {elements : List Json} : (∀ j ∈ elements, Writable j) → Writable (.array elements)
  | object {members : List (Key × Json)} :
      (∀ m ∈ members, m.1.surplus = quotedSurplus m.1.text) →
      (∀ m ∈ members, Writable m.2) → Writable (.object members)

mutual

/-- The tokens of a value. -/
def tokens : Json → List Token
  | .null => [.null]
  | .bool b => [.bool b]
  | .number n => [.number n]
  | .string s => [.string s (quotedSurplus s)]
  | .array [] => [.leftBracket, .rightBracket]
  | .array (j :: js) => .leftBracket :: (j.tokens ++ elementTokens js)
  | .object [] => [.leftBrace, .rightBrace]
  | .object ((key, j) :: ms) =>
    .leftBrace :: .string key.text key.surplus :: .colon :: (j.tokens ++ memberTokens ms)

/-- The tokens after the first element of an array. -/
def elementTokens : List Json → List Token
  | [] => [.rightBracket]
  | j :: js => .comma :: (j.tokens ++ elementTokens js)

/-- The tokens after the first member of an object. -/
def memberTokens : List (Key × Json) → List Token
  | [] => [.rightBrace]
  | (key, j) :: ms =>
    .comma :: .string key.text key.surplus :: .colon :: (j.tokens ++ memberTokens ms)

end

/-- A value as a document. -/
def text (j : Json) : String := String.ofList (j.tokens.flatMap Token.text)

/-- The greater of two depths. -/
def deeper (a b : Nat) : Nat := if a ≤ b then b else a

theorem add_deeper_le {d a b n : Nat} : d + deeper a b ≤ n ↔ d + a ≤ n ∧ d + b ≤ n := by
  rw [deeper]
  split <;> omega

mutual

/-- How deep arrays and objects nest in a value. -/
def depth : Json → Nat
  | .array js => elementDepth js + 1
  | .object ms => memberDepth ms + 1
  | _ => 0

/-- How deep arrays and objects nest in the elements of an array. -/
def elementDepth : List Json → Nat
  | [] => 0
  | j :: js => deeper j.depth (elementDepth js)

/-- How deep arrays and objects nest in the members of an object. -/
def memberDepth : List (Key × Json) → Nat
  | [] => 0
  | (_, j) :: ms => deeper j.depth (memberDepth ms)

end

/-! ## Tokens are found again -/

theorem endsNumber_mark {c : Char} (h : isDigit c = false ∧ c ≠ '.' ∧ c ≠ 'e' ∧ c ≠ 'E')
    (rest : List Char) : EndsNumber (c :: rest)
  | _, rfl => h

theorem endsNumber_elements (js : List Json) (rest : List Token) :
    EndsNumber ((elementTokens js ++ rest).flatMap Token.text) := by
  cases js <;> exact endsNumber_mark (by decide) _

theorem endsNumber_members (ms : List (Key × Json)) (rest : List Token) :
    EndsNumber ((memberTokens ms ++ rest).flatMap Token.text) := by
  cases ms <;> exact endsNumber_mark (by decide) _

mutual

theorem lexable_tokens : ∀ {j : Json} {rest : List Token}, j.Writable → Token.Lexable rest →
    EndsNumber (rest.flatMap Token.text) → Token.Lexable (j.tokens ++ rest)
  | .null, _, _, hrest, _ => .cons trivial trivial hrest
  | .bool _, _, _, hrest, _ => .cons trivial trivial hrest
  | .number _, _, .number hn, hrest, hend => .cons hn hend hrest
  | .string _, _, _, hrest, _ => .cons rfl trivial hrest
  | .array [], _, _, hrest, _ => .cons trivial trivial (.cons trivial trivial hrest)
  | .array (j :: js), rest, .array hjs, hrest, _ => by
    rw [List.forall_mem_cons] at hjs
    rw [tokens, List.cons_append, List.append_assoc]
    exact .cons trivial trivial (lexable_tokens hjs.1 (lexable_elements hjs.2 hrest)
      (endsNumber_elements js rest))
  | .object [], _, _, hrest, _ => .cons trivial trivial (.cons trivial trivial hrest)
  | .object ((key, j) :: ms), rest, .object hkeys hms, hrest, _ => by
    rw [List.forall_mem_cons] at hkeys hms
    rw [tokens, List.cons_append, List.cons_append, List.cons_append, List.append_assoc]
    exact .cons trivial trivial (.cons hkeys.1 trivial (.cons trivial trivial
      (lexable_tokens hms.1 (lexable_members hkeys.2 hms.2 hrest) (endsNumber_members ms rest))))

theorem lexable_elements : ∀ {js : List Json} {rest : List Token}, (∀ j ∈ js, j.Writable) →
    Token.Lexable rest → Token.Lexable (elementTokens js ++ rest)
  | [], _, _, hrest => .cons trivial trivial hrest
  | j :: js, rest, hjs, hrest => by
    rw [List.forall_mem_cons] at hjs
    rw [elementTokens, List.cons_append, List.append_assoc]
    exact .cons trivial trivial (lexable_tokens hjs.1 (lexable_elements hjs.2 hrest)
      (endsNumber_elements js rest))

theorem lexable_members : ∀ {ms : List (Key × Json)} {rest : List Token},
    (∀ m ∈ ms, m.1.surplus = quotedSurplus m.1.text) → (∀ m ∈ ms, m.2.Writable) →
    Token.Lexable rest → Token.Lexable (memberTokens ms ++ rest)
  | [], _, _, _, hrest => .cons trivial trivial hrest
  | (key, j) :: ms, rest, hkeys, hms, hrest => by
    rw [List.forall_mem_cons] at hkeys hms
    rw [memberTokens, List.cons_append, List.cons_append, List.cons_append, List.append_assoc]
    exact .cons trivial trivial (.cons hkeys.1 trivial (.cons trivial trivial
      (lexable_tokens hms.1 (lexable_members hkeys.2 hms.2 hrest) (endsNumber_members ms rest))))

end

/-! ## Values are read again -/

theorem tokens_cons (j : Json) :
    ∃ token rest, j.tokens = token :: rest ∧ token ≠ .rightBracket := by
  match j with
  | .null | .bool _ | .number _ | .string _ | .array [] | .array (_ :: _) | .object []
  | .object ((_, _) :: _) => exact ⟨_, _, rfl, nofun⟩

theorem tokens_pos (j : Json) : 0 < j.tokens.length := by
  obtain ⟨token, rest, hcons, -⟩ := tokens_cons j
  rw [hcons]
  exact Nat.zero_lt_succ _

/-- An opening bracket that is not closed at once is followed by elements. -/
theorem readValue?_leftBracket {token : Token} (h : token ≠ .rightBracket) (fuel : Nat)
    (rest : List Token) :
    readValue? (fuel + 1) (.leftBracket :: token :: rest)
      = (readElements? fuel (token :: rest)).map fun (js, rest) => (.array js, rest) := by
  rw [readValue?]
  · cases readElements? fuel (token :: rest) <;> rfl
  · rintro tokens ⟨⟩
    exact h rfl

/-- The value is read in front of any tokens with enough fuel. -/
def ReadsBack (j : Json) : Prop :=
  ∀ (fuel : Nat) (rest : List Token), 2 * j.tokens.length ≤ fuel →
    readValue? fuel (j.tokens ++ rest) = some (j, rest)

theorem readElements?_last {j : Json} (hj : j.ReadsBack) {fuel : Nat} (rest : List Token)
    (hfuel : 2 * j.tokens.length ≤ fuel) :
    readElements? (fuel + 1) (j.tokens ++ .rightBracket :: rest) = some ([j], rest) := by
  rw [readElements?, hj fuel _ hfuel]
  rfl

theorem readElements?_comma {j : Json} (hj : j.ReadsBack) {fuel : Nat} (rest : List Token)
    (hfuel : 2 * j.tokens.length ≤ fuel) :
    readElements? (fuel + 1) (j.tokens ++ .comma :: rest)
      = (readElements? fuel rest).map fun (js, rest) => (j :: js, rest) := by
  rw [readElements?, hj fuel _ hfuel, Option.bind_eq_bind, Option.bind_some]
  cases h : readElements? fuel rest <;> simp [h]

theorem readMembers?_last {j : Json} (hj : j.ReadsBack) (key : Key) {fuel : Nat}
    (rest : List Token) (hfuel : 2 * j.tokens.length ≤ fuel) :
    readMembers? (fuel + 1)
        (.string key.text key.surplus :: .colon :: (j.tokens ++ .rightBrace :: rest))
      = some ([(key, j)], rest) := by
  rw [readMembers?, hj fuel _ hfuel]
  rfl

theorem readMembers?_comma {j : Json} (hj : j.ReadsBack) (key : Key) {fuel : Nat}
    (rest : List Token) (hfuel : 2 * j.tokens.length ≤ fuel) :
    readMembers? (fuel + 1)
        (.string key.text key.surplus :: .colon :: (j.tokens ++ .comma :: rest))
      = (readMembers? fuel rest).map fun (ms, rest) => ((key, j) :: ms, rest) := by
  rw [readMembers?, hj fuel _ hfuel, Option.bind_eq_bind, Option.bind_some]
  cases h : readMembers? fuel rest <;> simp [h]

mutual

theorem readsBack : ∀ j : Json, j.ReadsBack
  | .null, fuel + 1, _, _ | .bool _, fuel + 1, _, _ | .number _, fuel + 1, _, _
  | .string _, fuel + 1, _, _ | .array [], fuel + 1, _, _ | .object [], fuel + 1, _, _ => rfl
  | .array (j :: js), fuel + 1, rest, hfuel => by
    obtain ⟨token, front, hcons, hclose⟩ := tokens_cons j
    rw [tokens, List.length_cons] at hfuel
    have hread := readElements?_tokens js (readsBack j) fuel rest (by omega)
    rw [tokens, List.cons_append]
    rw [hcons, List.cons_append, List.cons_append] at hread ⊢
    rw [readValue?_leftBracket hclose, hread]
    rfl
  | .object ((key, j) :: ms), fuel + 1, rest, hfuel => by
    rw [tokens, List.length_cons, List.length_cons, List.length_cons] at hfuel
    have hread := readMembers?_tokens ms (readsBack j) key fuel rest (by omega)
    rw [tokens, List.cons_append, List.cons_append, List.cons_append, readValue?, hread]
    · rfl
    · rintro tokens ⟨⟩

theorem readElements?_tokens : ∀ (js : List Json) {j : Json}, j.ReadsBack →
    ∀ (fuel : Nat) (rest : List Token), 2 * (j.tokens ++ elementTokens js).length ≤ fuel →
    readElements? fuel (j.tokens ++ elementTokens js ++ rest) = some (j :: js, rest)
  | js, j, _, 0, _, hfuel => by
    rw [List.length_append] at hfuel
    have hpos := tokens_pos j
    omega
  | [], j, hj, fuel + 1, rest, hfuel => by
    rw [elementTokens, List.length_append, List.length_singleton] at hfuel
    rw [elementTokens, List.append_assoc]
    exact readElements?_last hj rest (by omega)
  | j' :: js, j, hj, fuel + 1, rest, hfuel => by
    rw [elementTokens, List.length_append, List.length_cons] at hfuel
    have hread := readElements?_tokens js (readsBack j') fuel rest (by omega)
    rw [elementTokens, List.append_assoc, List.cons_append,
      readElements?_comma hj _ (by omega), hread]
    rfl

theorem readMembers?_tokens : ∀ (ms : List (Key × Json)) {j : Json}, j.ReadsBack →
    ∀ (key : Key) (fuel : Nat) (rest : List Token),
    2 * (j.tokens ++ memberTokens ms).length ≤ fuel →
    readMembers? fuel
        (.string key.text key.surplus :: .colon :: (j.tokens ++ memberTokens ms ++ rest))
      = some ((key, j) :: ms, rest)
  | ms, j, _, _, 0, _, hfuel => by
    rw [List.length_append] at hfuel
    have hpos := tokens_pos j
    omega
  | [], j, hj, key, fuel + 1, rest, hfuel => by
    rw [memberTokens, List.length_append, List.length_singleton] at hfuel
    rw [memberTokens, List.append_assoc]
    exact readMembers?_last hj key rest (by omega)
  | (key', j') :: ms, j, hj, key, fuel + 1, rest, hfuel => by
    simp only [memberTokens, List.length_append, List.length_cons] at hfuel
    have hread := readMembers?_tokens ms (readsBack j') key' fuel rest
      (by rw [List.length_append]; omega)
    rw [memberTokens, List.append_assoc, List.cons_append, List.cons_append, List.cons_append,
      readMembers?_comma hj key _ (by omega), hread]
    rfl

end

/-! ## Nesting -/

theorem nestWithin_open {token : Token} (h : token = .leftBrace ∨ token = .leftBracket)
    {limit d : Nat} (rest : List Token) :
    Token.nestWithin limit d (token :: rest) = true
      ↔ d + 1 ≤ limit ∧ Token.nestWithin limit (d + 1) rest = true := by
  rcases h with rfl | rfl
  all_goals
    rw [Token.nestWithin, Bool.and_eq_true, decide_eq_true_eq]
    exact Iff.rfl

/-- An opening mark, the first part and the other parts ask together for the depth of the whole. -/
theorem nest_parts {d a b limit : Nat} {P : Prop} :
    (d + 1 ≤ limit ∧ d + 1 + a ≤ limit ∧ d + 1 + b ≤ limit ∧ P)
      ↔ d + (deeper a b + 1) ≤ limit ∧ P := by
  rw [Nat.add_comm (deeper a b) 1, ← Nat.add_assoc, add_deeper_le, and_assoc]
  exact and_iff_right_of_imp fun h => by omega

theorem nestWithin_comma (limit d : Nat) (rest : List Token) :
    Token.nestWithin limit d (.comma :: rest) = Token.nestWithin limit d rest := rfl

theorem nestWithin_key (limit d : Nat) (key : Key) (rest : List Token) :
    Token.nestWithin limit d (.string key.text key.surplus :: .colon :: rest)
      = Token.nestWithin limit d rest := rfl

mutual

/-- Brackets and braces nest as deep as the value does. -/
theorem nestWithin_tokens : ∀ (j : Json) {limit d : Nat} (rest : List Token), d ≤ limit →
    (Token.nestWithin limit d (j.tokens ++ rest) = true
      ↔ d + j.depth ≤ limit ∧ Token.nestWithin limit d rest = true)
  | .null, _, _, _, hd | .bool _, _, _, _, hd | .number _, _, _, _, hd
  | .string _, _, _, _, hd => (and_iff_right hd).symm
  | .array [], _, _, _, _ => nestWithin_open (.inr rfl) _
  | .object [], _, _, _, _ => nestWithin_open (.inl rfl) _
  | .array (j :: js), limit, d, rest, _ => by
    rw [tokens, List.cons_append, nestWithin_open (.inr rfl), List.append_assoc, depth,
      elementDepth, ← nest_parts]
    refine and_congr_right fun hd => ?_
    rw [nestWithin_tokens j _ hd, nestWithin_elements js rest hd]
  | .object ((key, j) :: ms), limit, d, rest, _ => by
    rw [tokens, List.cons_append, nestWithin_open (.inl rfl), List.cons_append, List.cons_append,
      List.append_assoc, depth, memberDepth, ← nest_parts]
    refine and_congr_right fun hd => ?_
    rw [nestWithin_key, nestWithin_tokens j _ hd, nestWithin_members ms rest hd]

theorem nestWithin_elements : ∀ (js : List Json) {limit d : Nat} (rest : List Token),
    d + 1 ≤ limit →
    (Token.nestWithin limit (d + 1) (elementTokens js ++ rest) = true
      ↔ d + 1 + elementDepth js ≤ limit ∧ Token.nestWithin limit d rest = true)
  | [], _, _, _, hd => (and_iff_right hd).symm
  | j :: js, limit, d, rest, hd => by
    rw [elementTokens, elementDepth, List.cons_append, List.append_assoc, nestWithin_comma,
      nestWithin_tokens j _ hd, nestWithin_elements js rest hd, add_deeper_le, and_assoc]

theorem nestWithin_members : ∀ (ms : List (Key × Json)) {limit d : Nat} (rest : List Token),
    d + 1 ≤ limit →
    (Token.nestWithin limit (d + 1) (memberTokens ms ++ rest) = true
      ↔ d + 1 + memberDepth ms ≤ limit ∧ Token.nestWithin limit d rest = true)
  | [], _, _, _, hd => (and_iff_right hd).symm
  | (key, j) :: ms, limit, d, rest, hd => by
    rw [memberTokens, memberDepth, List.cons_append, List.cons_append, List.cons_append,
      List.append_assoc, nestWithin_comma, nestWithin_key, nestWithin_tokens j _ hd,
      nestWithin_members ms rest hd, add_deeper_le, and_assoc]

end

/-! ## Documents -/

/-- A written value is read back if and only if it does not nest too deep. -/
theorem read?_text {j j' : Json} (h : j.Writable) :
    read? j.text = some j' ↔ j' = j ∧ j.depth ≤ nestingLimit := by
  have hlex : Token.Lexable j.tokens := by
    have hlex := lexable_tokens h .nil nofun
    rwa [List.append_nil] at hlex
  have hscan := Token.scan?_text hlex
  have hnest : Token.nestWithin nestingLimit 0 j.tokens = true ↔ j.depth ≤ nestingLimit := by
    have hnest := nestWithin_tokens j [] (Nat.zero_le nestingLimit)
    simpa [Token.nestWithin] using hnest
  have hread := readsBack j (2 * j.tokens.length + 1) [] (Nat.le_succ _)
  rw [List.append_nil] at hread
  rw [read?_eq_some, text, String.toList_ofList, hscan]
  constructor
  · rintro ⟨tokens, htokens, hdepth, hvalue⟩
    cases htokens
    rw [hread] at hvalue
    cases hvalue
    exact ⟨rfl, hnest.1 hdepth⟩
  · rintro ⟨rfl, hdepth⟩
    exact ⟨_, rfl, hnest.2 hdepth, hread⟩

end Scaffold.Json
