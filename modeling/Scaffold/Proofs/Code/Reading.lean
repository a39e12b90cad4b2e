import Scaffold.Code.Expression
import Scaffold.Proofs.Text.Quoted

/-!
# Reading expressions from the left

What is written of an expression is recovered from the front of a text when it is
known what may follow (`Cancels`).  The steps of this are the same whatever the
expressions are: a run of characters goes on as long as it can, a part before a
given character ends there, parts after one another are read one by one, and the
first character tells of which form an operand is.

* `Cancels.run`, `Cancels.closed`, `Cancels.append`, `Cancels.enclosed`: single parts
  and parts with others after them.
* `opening_eq`, `head?_eq`: what stands at the front of the same text starts in the
  same way.
* `Separated.cancels_nil`, `Separated.cancels_cons`: lists with commas between their
  elements.
-/

namespace Scaffold.Code

/-! ## What follows -/

/-- A text that is at its end or goes on with one of the given characters. -/
def Follows (marks rest : List Char) : Prop := ∀ c ∈ rest.head?, c ∈ marks

/-- What may follow a list. -/
def closers : List Char := [')', ']', '\x7d']

/-- What may follow an expression. -/
def closings : List Char := [','] ++ closers

/-- What may follow an expression in a place. -/
def ends : Place → List Char
  | .free => closings
  | .operand => ' ' :: closings

/-- What an access or a call starts with. -/
def suffixMarks : List Char := ['.', '[', '(']

/-- What may follow a name. -/
def nameEnds : List Char := suffixMarks ++ ends .operand

section
variable {marks marks' rest : List Char} {c : Char}

theorem follows_nil : Follows marks [] := nofun

theorem follows_cons : Follows marks (c :: rest) ↔ c ∈ marks := by simp [Follows]

theorem Follows.mono (h : Follows marks rest) (hmarks : marks ⊆ marks') : Follows marks' rest :=
  fun c hc => hmarks (h c hc)

/-- What follows is of no class of characters that holds none of the marks. -/
theorem Follows.head?_eq_false {p : Char → Bool} (h : Follows marks rest)
    (hp : marks.all (fun c => !p c) = true) : ∀ c ∈ rest.head?, p c = false := by
  intro c hc
  have hmark : (!p c) = true := List.all_eq_true.1 hp c (h c hc)
  simpa using hmark

theorem Follows.append {front : List Char} (hfront : Follows marks front)
    (hrest : Follows marks' rest) : Follows (marks ++ marks') (front ++ rest) := by
  cases front with
  | nil => exact hrest.mono (List.subset_append_right marks marks')
  | cons c cs => exact follows_cons.2 (List.mem_append_left marks' (follows_cons.1 hfront))

/-- What may follow an expression may follow an operand. -/
theorem Follows.operand (h : Follows (ends .free) rest) : Follows (ends .operand) rest :=
  h.mono (List.subset_cons_self ' ' closings)

end

/-! ## Recovering what is written -/

/-- Before one of the given characters, nothing else can be read at the front of a text. -/
def Cancels {α : Type} (text : α → List Char) (marks : List Char) (a : α) : Prop :=
  ∀ ⦃b : α⦄ ⦃r s : List Char⦄, Follows marks r → Follows marks s →
    text a ++ r = text b ++ s → a = b ∧ r = s

section
variable {α β : Type} {text : α → List Char} {part : β → List Char} {marks marks' : List Char}
  {a a' : α} {b b' : β} {r s : List Char}

/-- A run of characters is read up to the first one that does not belong to it. -/
theorem Cancels.run {p : Char → Bool} (hinjective : Function.Injective text)
    (hrun : ∀ a, ∀ c ∈ text a, p c = true) (hmarks : marks.all (fun c => !p c) = true) (a : α) :
    Cancels text marks a := by
  intro b r s hr hs h
  obtain ⟨htext, hrest⟩ := Text.run_cancel (hrun a) (hrun b) (hr.head?_eq_false hmarks)
    (hs.head?_eq_false hmarks) h
  exact ⟨hinjective htext, hrest⟩

/-- A part in front of a character that may follow it. -/
theorem Cancels.closed (ha : Cancels text marks a) {close : Char} (hclose : close ∈ marks)
    (h : text a ++ close :: r = text a' ++ close :: s) : a = a' ∧ r = s := by
  obtain ⟨hfirst, hrest⟩ := ha (follows_cons.2 hclose) (follows_cons.2 hclose) h
  exact ⟨hfirst, (List.cons.inj hrest).2⟩

/-- A part with another part right after it. -/
theorem Cancels.append (ha : Cancels text (marks ++ marks') a) (hb : Cancels part marks' b)
    (hpart : ∀ b, Follows marks (part b)) (hr : Follows marks' r) (hs : Follows marks' s)
    (h : text a ++ part b ++ r = text a' ++ part b' ++ s) : a = a' ∧ b = b' ∧ r = s := by
  rw [List.append_assoc, List.append_assoc] at h
  obtain ⟨hfirst, hrest⟩ := ha ((hpart b).append hr) ((hpart b').append hs) h
  exact ⟨hfirst, hb hr hs hrest⟩

/-- A part between two characters with another part after them. -/
theorem Cancels.enclosed (ha : Cancels text marks a) (hb : Cancels part marks' b)
    {start close : Char} (hclose : close ∈ marks) (hr : Follows marks' r) (hs : Follows marks' s)
    (h : start :: (text a ++ close :: part b) ++ r = start :: (text a' ++ close :: part b') ++ s) :
    a = a' ∧ b = b' ∧ r = s := by
  simp only [List.cons_append, List.append_assoc, List.cons.injEq, true_and] at h
  obtain ⟨hfirst, hrest⟩ := ha.closed hclose h
  exact ⟨hfirst, hb hr hs hrest⟩

/-- An operand that ends where no blank may follow is not one before a blank. -/
theorem Cancels.append_ne_blank (ha : Cancels text (ends .operand) a)
    (hr : Follows (ends .free) r) : text a ++ r ≠ text a' ++ ' ' :: s := by
  intro h
  obtain ⟨-, rfl⟩ := ha hr.operand (follows_cons.2 List.mem_cons_self) h
  exact absurd (follows_cons.1 hr) (by decide)

theorem Cancels.blank_ne_append (ha : Cancels text (ends .operand) a)
    (hs : Follows (ends .free) s) : text a ++ ' ' :: r ≠ text a' ++ s := by
  intro h
  obtain ⟨-, rfl⟩ := ha (follows_cons.2 List.mem_cons_self) hs.operand h
  exact absurd (follows_cons.1 hs) (by decide)

/-- Where what is read starts with no character that may follow it, it starts as the text does. -/
theorem head?_eq (hmarks : marks.all (fun c => c ∉ marks') = true)
    (htext : ∀ a, Follows marks (text a)) (hr : Follows marks' r) (hs : Follows marks' s)
    (h : text a ++ r = text a' ++ s) : (text a).head? = (text a').head? := by
  have hfilter (a : α) {r : List Char} (hr : Follows marks' r) :
      (text a ++ r).head?.filter (fun c => c ∉ marks') = (text a).head? := by
    have hstart := htext a
    cases ha : text a with
    | nil =>
      cases r with
      | nil => rfl
      | cons c cs => simpa using follows_cons.1 hr
    | cons c cs =>
      rw [ha, follows_cons] at hstart
      simpa using List.all_eq_true.1 hmarks c hstart
  rw [← hfilter a hr, h, hfilter a' hs]

end

/-! ## The first character of an operand -/

/-- The characters of names: ASCII letters and digits, `_`, `$`, and all that is not ASCII. -/
def isNameChar (c : Char) : Bool := c.isAlphanum || c == '_' || c == '$' || 128 ≤ c.toNat

/-- The operators before an operand. -/
def signs : List Char := ['-', '+', '!', '~']

/-- What the first character of an operand tells of it. -/
inductive Opening where
  | sign
  | group
  | name
  | digit
  | quote
  | brace
  deriving DecidableEq

/-- The form of the operands that start with a character. -/
def opening? (c : Char) : Option Opening :=
  if c.isDigit then some .digit
  else if isNameChar c then some .name
  else if c = '"' then some .quote
  else if c = '\x7b' then some .brace
  else if c = '(' then some .group
  else if c ∈ signs then some .sign
  else none

theorem opening?_sign {c : Char} (h : c ∈ signs) : opening? c = some .sign := by
  have hsigns : signs.all (fun c => opening? c == some .sign) = true := rfl
  exact eq_of_beq (List.all_eq_true.1 hsigns c h)

theorem opening?_name {c : Char} (hname : isNameChar c = true) (hdigit : c.isDigit = false) :
    opening? c = some .name := by
  simp [opening?, hname, hdigit]

theorem opening?_alpha {c : Char} (h : c.isAlpha = true) : opening? c = some .name := by
  have hletter : 'A'.val ≤ c.val := by
    rcases Bool.or_eq_true_iff.1 h with hupper | hlower
    · have hbounds : 'A'.val ≤ c.val ∧ c.val ≤ 'Z'.val := of_decide_eq_true hupper
      exact hbounds.1
    · have hbounds : (decide ('a'.val ≤ c.val) && decide (c.val ≤ 'z'.val)) = true := hlower
      have hfirst : 'a'.val ≤ c.val := of_decide_eq_true (Bool.and_eq_true_iff.1 hbounds).1
      exact UInt32.le_trans (by decide) hfirst
  -- the letters come after the digits
  have hdigit : c.isDigit = false := by
    refine Bool.and_eq_false_iff.2 (.inr (decide_eq_false fun hnine => ?_))
    exact absurd (UInt32.le_trans hletter hnine) (by decide)
  exact opening?_name (by simp [isNameChar, Char.isAlphanum, h]) hdigit

theorem opening?_closer {c : Char} (h : c ∈ closers) : opening? c = none := by
  have hclosers : closers.all (fun c => (opening? c).isNone) = true := rfl
  exact Option.isNone_iff_eq_none.1 (List.all_eq_true.1 hclosers c h)

/-- Operands at the front of the same text are of the same form. -/
theorem opening_eq {α : Type} {text : α → List Char} {form : α → Opening}
    (hform : ∀ a, ∃ c cs, text a = c :: cs ∧ opening? c = some (form a)) {a b : α}
    {r s : List Char} (h : text a ++ r = text b ++ s) : form a = form b := by
  obtain ⟨c, cs, ha, hc⟩ := hform a
  obtain ⟨d, ds, hb, hd⟩ := hform b
  rw [ha, hb, List.cons_append, List.cons_append, List.cons.injEq] at h
  rw [h.1, hd, Option.some.injEq] at hc
  exact hc.symm

/-! ## Lists -/

/-- Lists that are written with a comma and a blank between their elements: the text of a list, and
its text when it goes on after another element. -/
structure Separated {α σ : Type} (element : α → List Char) (text more : σ → List Char) (nil : σ)
    (cons : α → σ → σ) : Prop where
  /-- There are no other lists. -/
  nil_or_cons : ∀ as, as = nil ∨ ∃ a bs, as = cons a bs
  text_nil : text nil = []
  text_cons : ∀ a as, text (cons a as) = element a ++ more as
  more_nil : more nil = []
  more_cons : ∀ a as, more (cons a as) = ',' :: ' ' :: text (cons a as)
  /-- An element starts as an operand does. -/
  opens : ∀ a, ∃ c cs, element a = c :: cs ∧ opening? c ≠ none

namespace Separated
variable {α σ : Type} {element : α → List Char} {text more : σ → List Char} {nil : σ}
  {cons : α → σ → σ}

theorem follows_more (h : Separated element text more nil cons) (as : σ) :
    Follows [','] (more as) := by
  obtain rfl | ⟨a, bs, rfl⟩ := h.nil_or_cons as
  · rw [h.more_nil]
    exact follows_nil
  · rw [h.more_cons]
    exact follows_cons.2 List.mem_cons_self

/-- A list that is not empty is not read where a list ends. -/
theorem not_follows_text (h : Separated element text more nil cons) (a : α) (as : σ)
    (r : List Char) : ¬ Follows closers (text (cons a as) ++ r) := by
  obtain ⟨c, cs, ha, hc⟩ := h.opens a
  rw [h.text_cons, ha, List.cons_append, List.cons_append, follows_cons]
  exact fun hcloser => hc (opening?_closer hcloser)

theorem not_follows_more (h : Separated element text more nil cons) (a : α) (as : σ)
    (r : List Char) : ¬ Follows closers (more (cons a as) ++ r) := by
  rw [h.more_cons, List.cons_append, follows_cons]
  decide

/-- The empty list is read where no other one is. -/
theorem cancels_nil_of (h : Separated element text more nil cons) {f : σ → List Char}
    (hnil : f nil = []) (hcons : ∀ a as r, ¬ Follows closers (f (cons a as) ++ r)) :
    Cancels f closers nil := by
  intro bs r s hr hs heq
  rw [hnil, List.nil_append] at heq
  obtain rfl | ⟨b, bs, rfl⟩ := h.nil_or_cons bs
  · rw [hnil] at heq
    exact ⟨rfl, heq⟩
  · exact absurd (heq ▸ hr) (hcons b bs s)

theorem cancels_nil (h : Separated element text more nil cons) :
    Cancels text closers nil ∧ Cancels more closers nil :=
  ⟨h.cancels_nil_of h.text_nil h.not_follows_text, h.cancels_nil_of h.more_nil h.not_follows_more⟩

theorem cancels_cons (h : Separated element text more nil cons) {a : α} {as : σ}
    (ha : Cancels element (ends .free) a) (has : Cancels more closers as) :
    Cancels text closers (cons a as) ∧ Cancels more closers (cons a as) := by
  have htext : Cancels text closers (cons a as) := by
    intro bs r s hr hs heq
    obtain rfl | ⟨b, bs, rfl⟩ := h.nil_or_cons bs
    · rw [h.text_nil, List.nil_append] at heq
      exact absurd (heq ▸ hs) (h.not_follows_text a as r)
    · rw [h.text_cons, h.text_cons] at heq
      obtain ⟨rfl, rfl, rfl⟩ := Cancels.append ha has h.follows_more hr hs heq
      exact ⟨rfl, rfl⟩
  refine ⟨htext, ?_⟩
  intro bs r s hr hs heq
  obtain rfl | ⟨b, bs, rfl⟩ := h.nil_or_cons bs
  · rw [h.more_nil, List.nil_append] at heq
    exact absurd (heq ▸ hs) (h.not_follows_more a as r)
  · -- after the comma and the blank stands the text of the list on its own
    rw [h.more_cons, h.more_cons] at heq
    exact htext hr hs (List.cons.inj (List.cons.inj heq).2).2

end Separated

end Scaffold.Code
