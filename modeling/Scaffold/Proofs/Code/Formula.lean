import Scaffold.Proofs.Code.Reading

/-!
# Formulas

A *formula* is built from names, numbers, quoted texts and arrays by signs,
binary operators, accesses and calls.  It is ordered for reading from the left:
the accesses and calls after a name are a trail of their own.  Operations are in
parentheses where they are operands, so that a formula has two texts, one for
each place.

The text of a formula is uniquely readable.  The first character of an operand
tells of which form it is.  A name, a number and an operator go on as long as
their characters do, a quoted text ends at its own quote, and all else is
delimited.  `Formula.Cancels` says that a formula can be recovered from the front
of a text that goes on with what may follow one.  There is one lemma for each form,
and `Formula.cancels` is the induction over them.

* `Formula.text_injective`: formulas with the same text are the same.
-/

namespace Scaffold.Code

/-! ## Names, numbers and operators -/

/-- Whether a text is a name: it is not empty and does not start with a digit. -/
def isName (text : String) : Bool :=
  match text.toList with
  | [] => false
  | c :: cs => !c.isDigit && (c :: cs).all isNameChar

/-- Whether a text is made of decimal digits, at least one. -/
def isDecimal (text : String) : Bool :=
  match text.toList with
  | [] => false
  | c :: cs => (c :: cs).all Char.isDigit

/-- The operators of unary operations. -/
def unaryOperators : List String := signs.map String.singleton

/-- The operators of logical operations. -/
def logicalOperators : List String := ["&&", "||", "??"]

/-- The operators of binary operations. -/
def binaryOperators : List String :=
  ["==", "!=", "===", "!==", "<", "<=", ">", ">=", "<<", ">>", ">>>", "+", "-", "*", "/", "%", "**",
   "|", "^", "&", "in", "instanceof"]

/-- The operators between two operands, as they are written. -/
def connectives : List String := logicalOperators ++ binaryOperators.map goOperator

/-- A name. -/
abbrev Name := {text : String // isName text = true}

/-- A number in decimal digits. -/
abbrev Decimal := {text : String // isDecimal text = true}

/-- An operator before an operand. -/
abbrev Unary := {c : Char // c ∈ signs}

/-- An operator between two operands. -/
abbrev Connective := {text : String // text ∈ connectives}

/-! ## Formulas -/

mutual

/-- An expression, read from the left. -/
inductive Formula where
  | signed (sign : Unary) (argument : Formula)
  | operation (left : Formula) (operator : Connective) (right : Formula)
  | chain (name : Name) (trail : Trail)
  | number (digits : Decimal)
  | quoted (text : String)
  | array (elements : Formulas)

/-- The accesses and calls after a name, from the left. -/
inductive Trail where
  | nil
  | member (name : Name) (rest : Trail)
  | index (property : Formula) (rest : Trail)
  | call (arguments : Formulas) (rest : Trail)

/-- The arguments of a call or the elements of an array. -/
inductive Formulas where
  | nil
  | cons (first : Formula) (rest : Formulas)

end

/-- The text of an operation in a place. -/
def placed : Place → List Char → List Char
  | .free, text => text
  | .operand, text => '(' :: (text ++ [')'])

mutual

/-- The text of a formula in a place. -/
@[simp] def Formula.text (place : Place) : Formula → List Char
  | .signed sign p => sign.1 :: p.text .operand
  | .operation l operator r =>
    placed place (l.text .operand ++ ' ' :: (operator.1.toList ++ ' ' :: r.text .operand))
  | .chain name ts => name.1.toList ++ ts.text
  | .number digits => digits.1.toList
  | .quoted text => (Text.quote text).toList
  | .array ps => '\x7b' :: (ps.text ++ ['\x7d'])

/-- The text of a trail. -/
@[simp] def Trail.text : Trail → List Char
  | .nil => []
  | .member name ts => '.' :: (name.1.toList ++ ts.text)
  | .index p ts => '[' :: (p.text .free ++ ']' :: ts.text)
  | .call ps ts => '(' :: (ps.text ++ ')' :: ts.text)

/-- The text of a list. -/
@[simp] def Formulas.text : Formulas → List Char
  | .nil => []
  | .cons p ps => p.text .free ++ ps.more

/-- The text of a list that follows another formula. -/
@[simp] def Formulas.more : Formulas → List Char
  | .nil => []
  | .cons p ps => ',' :: ' ' :: (p.text .free ++ ps.more)

end

/-! ## Runs of characters -/

theorem Name.eq_cons (name : Name) : ∃ c cs, name.1.toList = c :: cs ∧ c.isDigit = false ∧
    ∀ d ∈ name.1.toList, isNameChar d = true := by
  obtain ⟨text, h⟩ := name
  rw [isName] at h
  cases htext : text.toList with
  | nil => simp [htext] at h
  | cons c cs =>
    rw [htext, Bool.and_eq_true, List.all_eq_true] at h
    exact ⟨c, cs, rfl, by simpa using h.1, h.2⟩

theorem Decimal.eq_cons (digits : Decimal) : ∃ c cs, digits.1.toList = c :: cs ∧
    ∀ d ∈ digits.1.toList, d.isDigit = true := by
  obtain ⟨text, h⟩ := digits
  rw [isDecimal] at h
  cases htext : text.toList with
  | nil => simp [htext] at h
  | cons c cs =>
    rw [htext, List.all_eq_true] at h
    exact ⟨c, cs, rfl, h⟩

theorem toList_val_injective {P : String → Prop} :
    Function.Injective fun a : {text : String // P text} => a.1.toList :=
  fun _ _ h => Subtype.ext (String.toList_inj.1 h)

/-- A name is read up to the first character that cannot stand in one. -/
theorem Name.cancels (name : Name) : Cancels (fun name : Name => name.1.toList) nameEnds name := by
  have hrun (name : Name) : ∀ c ∈ name.1.toList, isNameChar c = true := by
    obtain ⟨_, _, _, _, hname⟩ := name.eq_cons
    exact hname
  exact .run toList_val_injective hrun rfl name

theorem Decimal.cancels (digits : Decimal) :
    Cancels (fun digits : Decimal => digits.1.toList) (ends .operand) digits := by
  have hrun (digits : Decimal) : ∀ c ∈ digits.1.toList, c.isDigit = true := by
    obtain ⟨_, _, _, hdigits⟩ := digits.eq_cons
    exact hdigits
  exact .run toList_val_injective hrun rfl digits

/-- An operator is read up to the blank after it. -/
theorem Connective.cancels (operator : Connective) :
    Cancels (fun operator : Connective => operator.1.toList) [' '] operator := by
  have hblank : connectives.all (fun text => text.toList.all (· != ' ')) = true := by decide
  have hrun (operator : Connective) : ∀ c ∈ operator.1.toList, (c != ' ') = true :=
    List.all_eq_true.1 (List.all_eq_true.1 hblank operator.1 operator.2)
  exact .run toList_val_injective hrun rfl operator

/-! ## First characters -/

/-- The form of a formula as an operand. -/
def Formula.opening : Formula → Opening
  | .signed .. => .sign
  | .operation .. => .group
  | .chain .. => .name
  | .number _ => .digit
  | .quoted _ => .quote
  | .array _ => .brace

theorem Formula.text_operand_eq_cons (p : Formula) :
    ∃ c cs, p.text .operand = c :: cs ∧ opening? c = some p.opening := by
  cases p with
  | signed sign p => exact ⟨_, _, rfl, opening?_sign sign.2⟩
  | operation l operator r => exact ⟨_, _, rfl, rfl⟩
  | chain name ts =>
    obtain ⟨c, cs, htext, hdigit, hname⟩ := name.eq_cons
    have hc : isNameChar c = true := hname c (htext ▸ List.mem_cons_self)
    exact ⟨c, cs ++ ts.text, by rw [Formula.text, htext, List.cons_append], opening?_name hc hdigit⟩
  | number digits =>
    obtain ⟨c, cs, htext, hdigits⟩ := digits.eq_cons
    have hc : c.isDigit = true := hdigits c (htext ▸ List.mem_cons_self)
    exact ⟨c, cs, by rw [Formula.text, htext], by simp [opening?, hc, opening]⟩
  | quoted text =>
    exact ⟨_, _, by rw [Formula.text, Text.quote, String.toList_ofList, Text.quoteChars]; rfl, rfl⟩
  | array ps => exact ⟨_, _, rfl, rfl⟩

/-- Only an operation is written in another way as an operand. -/
theorem Formula.operation_or (p : Formula) :
    (∃ l operator r, p = .operation l operator r) ∨ p.text .operand = p.text .free := by
  cases p with
  | operation l operator r => exact .inl ⟨l, operator, r, rfl⟩
  | _ => exact .inr rfl

theorem Formula.text_free_eq_cons (p : Formula) :
    ∃ c cs, p.text .free = c :: cs ∧ opening? c ≠ none := by
  obtain ⟨l, operator, r, rfl⟩ | hp := p.operation_or
  · obtain ⟨c, cs, hl, hc⟩ := l.text_operand_eq_cons
    exact ⟨c, _, by rw [Formula.text, placed, hl, List.cons_append], by simp [hc]⟩
  · obtain ⟨c, cs, htext, hc⟩ := p.text_operand_eq_cons
    exact ⟨c, cs, hp ▸ htext, by simp [hc]⟩

theorem Trail.follows_text (ts : Trail) : Follows suffixMarks ts.text := by
  cases ts with
  | nil => exact follows_nil
  | _ => exact follows_cons.2 (by decide)

theorem Formulas.separated :
    Separated (Formula.text .free) Formulas.text Formulas.more .nil .cons where
  nil_or_cons ps := by
    cases ps with
    | nil => exact .inl rfl
    | cons p ps => exact .inr ⟨p, ps, rfl⟩
  text_nil := rfl
  text_cons _ _ := rfl
  more_nil := rfl
  more_cons _ _ := rfl
  opens := Formula.text_free_eq_cons

/-! ## Unique readability -/

/-- A formula in front of a text is the only one. -/
abbrev Formula.Cancels (place : Place) (p : Formula) : Prop :=
  Code.Cancels (Formula.text place) (ends place) p

namespace Formula

theorem cancels_signed (sign : Unary) {p : Formula} (hp : p.Cancels .operand) :
    (signed sign p).Cancels .operand := by
  intro q r s hr hs h
  have hopening := opening_eq text_operand_eq_cons h
  cases q with
  | signed sign' q =>
    obtain ⟨hsign, hrest⟩ := List.cons.inj h
    obtain ⟨rfl, rfl⟩ := hp hr hs hrest
    obtain rfl : sign = sign' := Subtype.ext hsign
    exact ⟨rfl, rfl⟩
  | _ => cases hopening

/-- The text of an operation is read by its operands, with or without parentheses. -/
theorem operation_cancel {l r l' r' : Formula} {operator operator' : Connective}
    {t u : List Char} (hl : l.Cancels .operand) (hr : r.Cancels .operand)
    (ht : Follows (ends .operand) t) (hu : Follows (ends .operand) u)
    (h : (operation l operator r).text .free ++ t = (operation l' operator' r').text .free ++ u) :
    operation l operator r = operation l' operator' r' ∧ t = u := by
  simp only [text, placed, List.append_assoc, List.cons_append] at h
  obtain ⟨rfl, hrest⟩ := hl.closed List.mem_cons_self h
  obtain ⟨rfl, hright⟩ := operator.cancels.closed List.mem_cons_self hrest
  obtain ⟨rfl, rfl⟩ := hr ht hu hright
  exact ⟨rfl, rfl⟩

theorem cancels_operation (operator : Connective) {l r : Formula} (hl : l.Cancels .operand)
    (hr : r.Cancels .operand) : (operation l operator r).Cancels .operand := by
  intro q t u ht hu h
  have hopening := opening_eq text_operand_eq_cons h
  cases q with
  | operation l' operator' r' =>
    -- Within the parentheses both are read as free texts, up to the closing one.
    have hclose {rest : List Char} : Follows (ends .operand) (')' :: rest) :=
      follows_cons.2 (by decide)
    have htext (l : Formula) (operator : Connective) (r : Formula) (rest : List Char) :
        (operation l operator r).text .operand ++ rest
          = '(' :: ((operation l operator r).text .free ++ ')' :: rest) := by
      simp [text, placed]
    rw [htext, htext, List.cons.injEq] at h
    obtain ⟨heq, hrest⟩ := operation_cancel hl hr hclose hclose h.2
    exact ⟨heq, (List.cons.inj hrest).2⟩
  | _ => cases hopening

theorem cancels_chain (name : Name) {ts : Trail}
    (hts : Code.Cancels Trail.text (ends .operand) ts) : (chain name ts).Cancels .operand := by
  intro q r s hr hs h
  have hopening := opening_eq text_operand_eq_cons h
  cases q with
  | chain name' us =>
    obtain ⟨rfl, rfl, rfl⟩ := name.cancels.append hts Trail.follows_text hr hs h
    exact ⟨rfl, rfl⟩
  | _ => cases hopening

theorem cancels_number (digits : Decimal) : (number digits).Cancels .operand := by
  intro q r s hr hs h
  have hopening := opening_eq text_operand_eq_cons h
  cases q with
  | number digits' =>
    obtain ⟨rfl, rfl⟩ := digits.cancels hr hs h
    exact ⟨rfl, rfl⟩
  | _ => cases hopening

theorem cancels_quoted (text : String) : (quoted text).Cancels .operand := by
  intro q r s hr hs h
  have hopening := opening_eq text_operand_eq_cons h
  cases q with
  | quoted text' =>
    obtain ⟨rfl, rfl⟩ := Text.quote_cancel h
    exact ⟨rfl, rfl⟩
  | _ => cases hopening

theorem cancels_array {ps : Formulas} (hps : Code.Cancels Formulas.text closers ps) :
    (array ps).Cancels .operand := by
  intro q r s hr hs h
  have hopening := opening_eq text_operand_eq_cons h
  cases q with
  | array qs =>
    simp only [text, List.cons_append, List.append_assoc, List.nil_append, List.cons.injEq,
      true_and] at h
    obtain ⟨rfl, rfl⟩ := hps.closed (by decide) h
    exact ⟨rfl, rfl⟩
  | _ => cases hopening

/-- What is no operation is read in the same way in both places.  It is not the left operand of an
operation, since no blank may follow. -/
theorem Cancels.free {p : Formula} (hp : p.Cancels .operand)
    (htext : p.text .operand = p.text .free) : p.Cancels .free := by
  intro q r s hr hs h
  rw [← htext] at h
  obtain ⟨l, operator, r', rfl⟩ | hq := q.operation_or
  · simp only [text, placed, List.append_assoc, List.cons_append] at h
    exact absurd h (hp.append_ne_blank hr)
  · rw [← hq] at h
    exact hp hr.operand hs.operand h

theorem cancels_operation_free (operator : Connective) {l r : Formula} (hl : l.Cancels .operand)
    (hr : r.Cancels .operand) : (operation l operator r).Cancels .free := by
  intro q t u ht hu h
  obtain ⟨l', operator', r', rfl⟩ | hq := q.operation_or
  · exact operation_cancel hl hr ht.operand hu.operand h
  · rw [← hq] at h
    simp only [text, placed, List.append_assoc, List.cons_append] at h
    exact absurd h (hl.blank_ne_append hu)

end Formula

namespace Trail

theorem cancels_nil : Cancels text (ends .operand) nil := by
  intro us r s hr hs h
  have hhead := head?_eq rfl follows_text hr hs h
  cases us with
  | nil => exact ⟨rfl, h⟩
  | _ => cases hhead

theorem cancels_member (name : Name) {ts : Trail} (hts : Cancels text (ends .operand) ts) :
    Cancels text (ends .operand) (member name ts) := by
  intro us r s hr hs h
  have hhead := head?_eq rfl follows_text hr hs h
  cases us with
  | member name' us =>
    obtain ⟨rfl, rfl, rfl⟩ := name.cancels.append hts follows_text hr hs (List.cons.inj h).2
    exact ⟨rfl, rfl⟩
  | _ => revert hhead; simp

theorem cancels_index {p : Formula} {ts : Trail} (hp : p.Cancels .free)
    (hts : Cancels text (ends .operand) ts) : Cancels text (ends .operand) (index p ts) := by
  intro us r s hr hs h
  have hhead := head?_eq rfl follows_text hr hs h
  cases us with
  | index q us =>
    obtain ⟨rfl, rfl, rfl⟩ := hp.enclosed hts (by decide) hr hs h
    exact ⟨rfl, rfl⟩
  | _ => revert hhead; simp

theorem cancels_call {ps : Formulas} {ts : Trail} (hps : Cancels Formulas.text closers ps)
    (hts : Cancels text (ends .operand) ts) : Cancels text (ends .operand) (call ps ts) := by
  intro us r s hr hs h
  have hhead := head?_eq rfl follows_text hr hs h
  cases us with
  | call qs us =>
    obtain ⟨rfl, rfl, rfl⟩ := hps.enclosed hts (by decide) hr hs h
    exact ⟨rfl, rfl⟩
  | _ => revert hhead; simp

end Trail

mutual

/-- Every formula can be recovered from the front of a text, in both places. -/
theorem Formula.cancels : ∀ p : Formula, p.Cancels .operand ∧ p.Cancels .free
  | .signed sign p =>
    have h := Formula.cancels_signed sign p.cancels.1
    ⟨h, h.free rfl⟩
  | .operation l operator r =>
    ⟨Formula.cancels_operation operator l.cancels.1 r.cancels.1,
      Formula.cancels_operation_free operator l.cancels.1 r.cancels.1⟩
  | .chain name ts =>
    have h := Formula.cancels_chain name ts.cancels
    ⟨h, h.free rfl⟩
  | .number digits =>
    have h := Formula.cancels_number digits
    ⟨h, h.free rfl⟩
  | .quoted text =>
    have h := Formula.cancels_quoted text
    ⟨h, h.free rfl⟩
  | .array ps =>
    have h := Formula.cancels_array ps.cancels.1
    ⟨h, h.free rfl⟩

theorem Trail.cancels : ∀ ts : Trail, Cancels Trail.text (ends .operand) ts
  | .nil => Trail.cancels_nil
  | .member name ts => Trail.cancels_member name ts.cancels
  | .index p ts => Trail.cancels_index p.cancels.2 ts.cancels
  | .call ps ts => Trail.cancels_call ps.cancels.1 ts.cancels

theorem Formulas.cancels : ∀ ps : Formulas,
    Cancels Formulas.text closers ps ∧ Cancels Formulas.more closers ps
  | .nil => Formulas.separated.cancels_nil
  | .cons p ps => Formulas.separated.cancels_cons p.cancels.2 ps.cancels.2

end

/-- Formulas with the same text are the same. -/
theorem Formula.text_injective {p q : Formula} (h : p.text .free = q.text .free) : p = q :=
  (p.cancels.2 follows_nil follows_nil (congrArg (· ++ []) h)).1

end Scaffold.Code
