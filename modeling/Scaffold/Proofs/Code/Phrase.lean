import Scaffold.Proofs.Code.Reading

/-!
# Phrases

A *phrase* is what the text of an expression shows before anything is said about
what its operators apply to: operands with binary operators between them, where
an operand is a word or a phrase in parentheses with signs before it and accesses
and calls after it.  Two expressions that are grouped in different ways may be
written as the same phrase.

The text of a phrase is uniquely readable.  An operand ends at the first
character that can follow one, and so does a word or a phrase.  There is one lemma
for each form, and `Phrase.cancels` is the induction over them.

* `Phrase.text_injective`: phrases with the same text are the same.
-/

namespace Scaffold.Code

/-- A name made of ASCII letters. -/
structure Word where
  /-- Its letters. -/
  text : String
  /-- There is a letter. -/
  ne_nil : text.toList ≠ []
  /-- There is nothing else. -/
  isAlpha : ∀ c ∈ text.toList, c.isAlpha = true

/-- The binary operators of arithmetic. -/
inductive Operator where
  | plus
  | minus
  | times
  | over
  deriving DecidableEq, Repr

/-- The unary operators. -/
inductive Sign where
  | plus
  | minus
  | not
  deriving DecidableEq, Repr

/-- The character of a binary operator. -/
def Operator.char : Operator → Char
  | .plus => '+'
  | .minus => '-'
  | .times => '*'
  | .over => '/'

/-- The character of a unary operator. -/
def Sign.char : Sign → Char
  | .plus => '+'
  | .minus => '-'
  | .not => '!'

theorem Operator.char_injective {a b : Operator} (h : a.char = b.char) : a = b := by
  revert h
  cases a <;> cases b <;> decide

theorem Sign.char_injective {a b : Sign} (h : a.char = b.char) : a = b := by
  revert h
  cases a <;> cases b <;> decide

mutual

/-- Operands with binary operators between them. -/
inductive Phrase where
  | operand (first : Operand)
  | operation (first : Operand) (operator : Operator) (rest : Phrase)

/-- An operand, with its signs from the left. -/
inductive Operand where
  | signed (sign : Sign) (operand : Operand)
  | word (name : Word) (suffixes : Suffixes)
  | group (phrase : Phrase) (suffixes : Suffixes)

/-- The accesses and calls after an operand, from the left. -/
inductive Suffixes where
  | nil
  | member (name : Word) (rest : Suffixes)
  | call (arguments : Arguments) (rest : Suffixes)

/-- The arguments of a call. -/
inductive Arguments where
  | nil
  | cons (first : Phrase) (rest : Arguments)

end

/-! ## Text -/

mutual

/-- The text of a phrase. -/
def Phrase.text : Phrase → List Char
  | .operand o => o.text
  | .operation o operator p => o.text ++ ' ' :: operator.char :: ' ' :: p.text

/-- The text of an operand. -/
def Operand.text : Operand → List Char
  | .signed sign o => sign.char :: o.text
  | .word w ss => w.text.toList ++ ss.text
  | .group p ss => '(' :: (p.text ++ ')' :: ss.text)

/-- The text of suffixes. -/
def Suffixes.text : Suffixes → List Char
  | .nil => []
  | .member w ss => '.' :: (w.text.toList ++ ss.text)
  | .call as ss => '(' :: (as.text ++ ')' :: ss.text)

/-- The text of arguments. -/
def Arguments.text : Arguments → List Char
  | .nil => []
  | .cons p as => p.text ++ as.more

/-- The text of arguments that follow another one. -/
def Arguments.more : Arguments → List Char
  | .nil => []
  | .cons p as => ',' :: ' ' :: (p.text ++ as.more)

end

/-! ## Putting phrases together -/

/-- Two phrases with an operator between them. -/
def Phrase.joined : Phrase → Operator → Phrase → Phrase
  | .operand o, operator, q => .operation o operator q
  | .operation o operator' p, operator, q => .operation o operator' (p.joined operator q)

/-- A phrase with a sign before it, which the first operand takes. -/
def Phrase.signed (sign : Sign) : Phrase → Phrase
  | .operand o => .operand (.signed sign o)
  | .operation o operator p => .operation (.signed sign o) operator p

/-- Suffixes with more of them after them. -/
def Suffixes.append : Suffixes → Suffixes → Suffixes
  | .nil, ts => ts
  | .member w ss, ts => .member w (ss.append ts)
  | .call as ss, ts => .call as (ss.append ts)

/-- An operand with suffixes after it. -/
def Operand.followed : Operand → Suffixes → Operand
  | .signed sign o, ts => .signed sign (o.followed ts)
  | .word w ss, ts => .word w (ss.append ts)
  | .group p ss, ts => .group p (ss.append ts)

/-- A phrase with suffixes after it, which the last operand takes. -/
def Phrase.followed : Phrase → Suffixes → Phrase
  | .operand o, ts => .operand (o.followed ts)
  | .operation o operator p, ts => .operation o operator (p.followed ts)

/-- A phrase in parentheses. -/
def Phrase.grouped (p : Phrase) : Phrase := .operand (.group p .nil)

theorem Phrase.text_joined (operator : Operator) (q : Phrase) :
    ∀ p : Phrase, (p.joined operator q).text = p.text ++ ' ' :: operator.char :: ' ' :: q.text
  | .operand o => rfl
  | .operation o operator' p => by
    simp only [Phrase.joined, Phrase.text, Phrase.text_joined operator q p, List.append_assoc,
      List.cons_append]

theorem Phrase.text_signed (sign : Sign) : ∀ p : Phrase, (p.signed sign).text = sign.char :: p.text
  | .operand _ => rfl
  | .operation .. => rfl

theorem Suffixes.text_append (ts : Suffixes) :
    ∀ ss : Suffixes, (ss.append ts).text = ss.text ++ ts.text
  | .nil => rfl
  | .member w ss => by
    simp only [Suffixes.append, Suffixes.text, Suffixes.text_append ts ss, List.append_assoc,
      List.cons_append]
  | .call as ss => by
    simp only [Suffixes.append, Suffixes.text, Suffixes.text_append ts ss, List.append_assoc,
      List.cons_append]

theorem Operand.text_followed (ts : Suffixes) :
    ∀ o : Operand, (o.followed ts).text = o.text ++ ts.text
  | .signed sign o => by
    rw [Operand.followed, Operand.text, Operand.text_followed ts o, Operand.text, List.cons_append]
  | .word w ss => by
    simp only [Operand.followed, Operand.text, Suffixes.text_append, List.append_assoc]
  | .group p ss => by
    simp only [Operand.followed, Operand.text, Suffixes.text_append, List.append_assoc,
      List.cons_append]

theorem Phrase.text_followed (ts : Suffixes) :
    ∀ p : Phrase, (p.followed ts).text = p.text ++ ts.text
  | .operand o => o.text_followed ts
  | .operation o operator p => by
    simp only [Phrase.followed, Phrase.text, Phrase.text_followed ts p, List.append_assoc,
      List.cons_append]

/-! ## First characters -/

theorem Word.text_eq_cons (w : Word) :
    ∃ c cs, w.text.toList = c :: cs ∧ opening? c = some .name := by
  obtain ⟨c, cs, h⟩ := List.exists_cons_of_ne_nil w.ne_nil
  exact ⟨c, cs, h, opening?_alpha (w.isAlpha c (h ▸ List.mem_cons_self))⟩

theorem Sign.char_mem_signs (sign : Sign) : sign.char ∈ signs := by
  cases sign <;> decide

/-- The form of an operand. -/
def Operand.opening : Operand → Opening
  | .signed .. => .sign
  | .word .. => .name
  | .group .. => .group

theorem Operand.text_eq_cons : ∀ o : Operand, ∃ c cs, o.text = c :: cs ∧ opening? c = some o.opening
  | .signed sign o => ⟨sign.char, o.text, rfl, opening?_sign sign.char_mem_signs⟩
  | .group p ss => ⟨'(', p.text ++ ')' :: ss.text, rfl, rfl⟩
  | .word w ss => by
    obtain ⟨c, cs, h, hc⟩ := w.text_eq_cons
    exact ⟨c, cs ++ ss.text, by rw [Operand.text, h, List.cons_append], hc⟩

theorem Phrase.text_eq_cons : ∀ p : Phrase, ∃ c cs, p.text = c :: cs ∧ opening? c ≠ none
  | .operand o => by
    obtain ⟨c, cs, h, hc⟩ := o.text_eq_cons
    exact ⟨c, cs, h, by simp [hc]⟩
  | .operation o operator p => by
    obtain ⟨c, cs, h, hc⟩ := o.text_eq_cons
    exact ⟨c, _, by rw [Phrase.text, h, List.cons_append], by simp [hc]⟩

theorem Suffixes.follows_text (ss : Suffixes) : Follows suffixMarks ss.text := by
  cases ss with
  | nil => exact follows_nil
  | _ => exact follows_cons.2 (by decide)

theorem Arguments.separated :
    Separated Phrase.text Arguments.text Arguments.more .nil .cons where
  nil_or_cons as := by
    cases as with
    | nil => exact .inl rfl
    | cons p as => exact .inr ⟨p, as, rfl⟩
  text_nil := rfl
  text_cons _ _ := rfl
  more_nil := rfl
  more_cons _ _ := rfl
  opens := Phrase.text_eq_cons

/-! ## Unique readability -/

theorem Word.text_injective : Function.Injective fun w : Word => w.text.toList := by
  intro w v h
  obtain ⟨text, _, _⟩ := w
  obtain rfl : text = v.text := String.toList_inj.1 h
  rfl

/-- A word is read up to the first character that is no letter. -/
theorem Word.cancels (w : Word) : Cancels (fun w : Word => w.text.toList) nameEnds w :=
  .run Word.text_injective Word.isAlpha rfl w

namespace Phrase

theorem cancels_operand {o : Operand} (ho : Cancels Operand.text (ends .operand) o) :
    Cancels text (ends .free) (operand o) := by
  intro q r s hr hs h
  cases q with
  | operand o' =>
    obtain ⟨rfl, rfl⟩ := ho hr.operand hs.operand h
    exact ⟨rfl, rfl⟩
  | operation o' operator q =>
    rw [text, text, List.append_assoc, List.cons_append] at h
    exact absurd h (ho.append_ne_blank hr)

theorem cancels_operation (operator : Operator) {o : Operand} {p : Phrase}
    (ho : Cancels Operand.text (ends .operand) o) (hp : Cancels text (ends .free) p) :
    Cancels text (ends .free) (operation o operator p) := by
  intro q r s hr hs h
  cases q with
  | operand o' =>
    rw [text, text, List.append_assoc, List.cons_append] at h
    exact absurd h (ho.blank_ne_append hs)
  | operation o' operator' q =>
    simp only [text, List.append_assoc, List.cons_append] at h
    obtain ⟨rfl, hrest⟩ := ho.closed List.mem_cons_self h
    simp only [List.cons.injEq, true_and] at hrest
    obtain ⟨hoperator, htext⟩ := hrest
    obtain ⟨rfl, rfl⟩ := hp hr hs htext
    exact ⟨by rw [Operator.char_injective hoperator], rfl⟩

end Phrase

namespace Operand

theorem cancels_signed (sign : Sign) {o : Operand} (ho : Cancels text (ends .operand) o) :
    Cancels text (ends .operand) (signed sign o) := by
  intro o' r s hr hs h
  have hopening := opening_eq text_eq_cons h
  cases o' with
  | signed sign' o' =>
    obtain ⟨hsign, hrest⟩ := List.cons.inj h
    obtain ⟨rfl, rfl⟩ := ho hr hs hrest
    exact ⟨by rw [Sign.char_injective hsign], rfl⟩
  | _ => cases hopening

theorem cancels_word (w : Word) {ss : Suffixes} (hss : Cancels Suffixes.text (ends .operand) ss) :
    Cancels text (ends .operand) (word w ss) := by
  intro o r s hr hs h
  have hopening := opening_eq text_eq_cons h
  cases o with
  | word v ts =>
    obtain ⟨rfl, rfl, rfl⟩ := w.cancels.append hss Suffixes.follows_text hr hs h
    exact ⟨rfl, rfl⟩
  | _ => cases hopening

theorem cancels_group {p : Phrase} {ss : Suffixes} (hp : Cancels Phrase.text (ends .free) p)
    (hss : Cancels Suffixes.text (ends .operand) ss) :
    Cancels text (ends .operand) (group p ss) := by
  intro o r s hr hs h
  have hopening := opening_eq text_eq_cons h
  cases o with
  | group q ts =>
    obtain ⟨rfl, rfl, rfl⟩ := hp.enclosed hss (by decide) hr hs h
    exact ⟨rfl, rfl⟩
  | _ => cases hopening

end Operand

namespace Suffixes

theorem cancels_nil : Cancels text (ends .operand) nil := by
  intro ts r s hr hs h
  have hhead := head?_eq rfl follows_text hr hs h
  cases ts with
  | nil => exact ⟨rfl, h⟩
  | _ => cases hhead

theorem cancels_member (w : Word) {ss : Suffixes} (hss : Cancels text (ends .operand) ss) :
    Cancels text (ends .operand) (member w ss) := by
  intro ts r s hr hs h
  have hhead := head?_eq rfl follows_text hr hs h
  cases ts with
  | member v ts =>
    obtain ⟨rfl, rfl, rfl⟩ := w.cancels.append hss follows_text hr hs (List.cons.inj h).2
    exact ⟨rfl, rfl⟩
  | _ => revert hhead; simp [text]

theorem cancels_call {as : Arguments} {ss : Suffixes} (has : Cancels Arguments.text closers as)
    (hss : Cancels text (ends .operand) ss) : Cancels text (ends .operand) (call as ss) := by
  intro ts r s hr hs h
  have hhead := head?_eq rfl follows_text hr hs h
  cases ts with
  | call bs ts =>
    obtain ⟨rfl, rfl, rfl⟩ := has.enclosed hss (by decide) hr hs h
    exact ⟨rfl, rfl⟩
  | _ => revert hhead; simp [text]

end Suffixes

mutual

/-- Every phrase can be recovered from the front of a text. -/
theorem Phrase.cancels (p : Phrase) : Cancels Phrase.text (ends .free) p := by
  cases p with
  | operand o => exact Phrase.cancels_operand o.cancels
  | operation o operator p => exact Phrase.cancels_operation operator o.cancels p.cancels

theorem Operand.cancels (o : Operand) : Cancels Operand.text (ends .operand) o := by
  cases o with
  | signed sign o => exact Operand.cancels_signed sign o.cancels
  | word w ss => exact Operand.cancels_word w ss.cancels
  | group p ss => exact Operand.cancels_group p.cancels ss.cancels

theorem Suffixes.cancels (ss : Suffixes) : Cancels Suffixes.text (ends .operand) ss := by
  cases ss with
  | nil => exact Suffixes.cancels_nil
  | member w ss => exact Suffixes.cancels_member w ss.cancels
  | call as ss => exact Suffixes.cancels_call as.cancels.1 ss.cancels

theorem Arguments.cancels (as : Arguments) :
    Cancels Arguments.text closers as ∧ Cancels Arguments.more closers as := by
  cases as with
  | nil => exact Arguments.separated.cancels_nil
  | cons p as => exact Arguments.separated.cancels_cons p.cancels as.cancels.2

end

/-- Phrases with the same text are the same. -/
theorem Phrase.text_injective {p q : Phrase} (h : p.text = q.text) : p = q :=
  (p.cancels follows_nil follows_nil (congrArg (· ++ []) h)).1

end Scaffold.Code
