import Scaffold.Proofs.Code.Term

/-!
# Grouping of operands

An operation that is an operand is put in parentheses, below a binary operator
as well as below a sign.  An operation or a signed term that is accessed or
called is not.  There the access or call is taken by the last operand alone.

A term in which only words, accesses and calls are accessed or called is
*grouped*.  A phrase reads back as a term, in which a sign applies to the operand
after it and an access or call to the operand before it.  What is written as the
phrase of a grouped term reads back as that term, and what is written as the
phrase of another term reads back as something else (`Term.term_phrase_iff`).

* `expression_injective`: terms have the same text exactly when they are written
  as the same phrase, a term is grouped exactly when its text reads back as it, and
  grouped terms with the same text have the same tree, up to spans.
* `expression_access_of_sum`: terms that are not grouped may have the text of
  another one.
-/

namespace Scaffold.Code

/-! ## Grouped terms -/

mutual

/-- A grouped word, access or call. -/
inductive Term.Primary : Term → Prop where
  | name (w : Word) : Primary (.name w)
  | member {t : Term} {w : Word} : Primary t → Primary (.member t w)
  | call {t : Term} {ts : List Term} : Primary t → (∀ a ∈ ts, Grouped a) → Primary (.call t ts)

/-- A term in which only words, accesses and calls are accessed or called. -/
inductive Term.Grouped : Term → Prop where
  | primary {t : Term} : Primary t → Grouped t
  | binary {operator : Operator} {l r : Term} :
      Grouped l → Grouped r → Grouped (.binary operator l r)
  | unary {sign : Sign} {t : Term} : Grouped t → Grouped (.unary sign t)

end

/-! ## Reading back -/

mutual

/-- The term of a phrase: a sign applies to the operand after it, and an access or call to the
operand before it. -/
def Phrase.term : Phrase → Term
  | .operand o => o.term
  | .operation o operator p => .binary operator o.term p.term

/-- The term of an operand. -/
def Operand.term : Operand → Term
  | .signed sign o => .unary sign o.term
  | .word w ss => ss.apply (.name w)
  | .group p ss => ss.apply p.term

/-- A term with suffixes applied to it, one after the other. -/
def Suffixes.apply : Suffixes → Term → Term
  | .nil, t => t
  | .member w ss, t => ss.apply (.member t w)
  | .call as ss, t => ss.apply (.call t as.terms)

/-- The terms of arguments. -/
def Arguments.terms : Arguments → List Term
  | .nil => []
  | .cons p as => p.term :: as.terms

end

theorem Suffixes.apply_append (ts : Suffixes) :
    ∀ (ss : Suffixes) (t : Term), (ss.append ts).apply t = ts.apply (ss.apply t)
  | .nil, _ => rfl
  | .member w ss, t => Suffixes.apply_append ts ss (.member t w)
  | .call as ss, t => Suffixes.apply_append ts ss (.call t as.terms)

theorem Term.terms_phrases {ts : List Term} (h : ∀ t ∈ ts, (t.phrase .free).term = t) :
    (Term.phrases ts).terms = ts := by
  induction ts with
  | nil => rfl
  | cons t ts ih =>
    rw [List.forall_mem_cons] at h
    rw [Term.phrases, Arguments.terms, h.1, ih h.2]

mutual

/-- A primary is written as a word with suffixes, wherever it stands. -/
theorem Term.Primary.phrase_eq : ∀ {t : Term}, t.Primary →
    ∃ w ss, (∀ place, t.phrase place = .operand (.word w ss)) ∧ ss.apply (.name w) = t
  | _, .name w => ⟨w, .nil, fun _ => rfl, rfl⟩
  | _, @Term.Primary.member _ v h => by
    obtain ⟨w, ss, hphrase, hterm⟩ := h.phrase_eq
    refine ⟨w, ss.append (.member v .nil), fun _ => by rw [Term.phrase, hphrase]; rfl, ?_⟩
    rw [Suffixes.apply_append, hterm, Suffixes.apply, Suffixes.apply]
  | _, @Term.Primary.call _ ts h hts => by
    obtain ⟨w, ss, hphrase, hterm⟩ := h.phrase_eq
    have hargs : (Term.phrases ts).terms = ts :=
      Term.terms_phrases fun a ha => (hts a ha).term_phrase
    refine ⟨w, ss.append (.call (Term.phrases ts) .nil),
      fun _ => by rw [Term.phrase, hphrase]; rfl, ?_⟩
    rw [Suffixes.apply_append, hterm, Suffixes.apply, Suffixes.apply, hargs]

/-- A grouped term is one operand where it stands as an operand. -/
theorem Term.Grouped.phrase_operand : ∀ {t : Term}, t.Grouped →
    ∃ o, t.phrase .operand = .operand o ∧ o.term = t
  | _, .primary h => by
    obtain ⟨w, ss, hphrase, hterm⟩ := h.phrase_eq
    exact ⟨.word w ss, hphrase .operand, hterm⟩
  | _, @Term.Grouped.unary sign _ h => by
    obtain ⟨o, hphrase, hterm⟩ := h.phrase_operand
    exact ⟨.signed sign o, by rw [Term.phrase, hphrase]; rfl, by rw [Operand.term, hterm]⟩
  | _, @Term.Grouped.binary operator _ _ hl hr => by
    obtain ⟨o, hleft, hl⟩ := hl.phrase_operand
    obtain ⟨o', hright, hr⟩ := hr.phrase_operand
    refine ⟨.group (.operation o operator (.operand o')) .nil, ?_, ?_⟩
    · rw [Term.phrase, hleft, hright]
      rfl
    · rw [Operand.term, Phrase.term, Phrase.term, Suffixes.apply, hl, hr]

/-- The phrase of a grouped term reads back as the term. -/
theorem Term.Grouped.term_phrase : ∀ {t : Term}, t.Grouped → (t.phrase .free).term = t
  | _, .primary h => by
    obtain ⟨w, ss, hphrase, hterm⟩ := h.phrase_eq
    rw [hphrase, Phrase.term, Operand.term, hterm]
  | _, .unary h => by
    obtain ⟨o, hphrase, hterm⟩ := h.phrase_operand
    rw [Term.phrase, hphrase, Phrase.signed, Phrase.term, Operand.term, hterm]
  | _, .binary hl hr => by
    obtain ⟨o, hleft, hl⟩ := hl.phrase_operand
    obtain ⟨o', hright, hr⟩ := hr.phrase_operand
    rw [Term.phrase, hleft, hright, Phrase.atPlace, Phrase.joined, Phrase.term, Phrase.term, hl, hr]

end

/-! ## Terms that read back are grouped -/

mutual

/-- The number of words in a term. -/
def Term.words : Term → Nat
  | .name _ => 1
  | .binary _ l r => l.words + r.words
  | .unary _ t => t.words
  | .member t _ => t.words + 1
  | .call t ts => t.words + Term.wordsList ts

/-- The number of words in arguments. -/
def Term.wordsList : List Term → Nat
  | [] => 0
  | t :: ts => t.words + Term.wordsList ts

end

theorem Term.words_pos (t : Term) : 0 < t.words := by
  cases t with
  | name w => exact Nat.one_pos
  | binary operator l r => exact Nat.add_pos_left l.words_pos _
  | unary sign t => exact t.words_pos
  | member t w => exact Nat.succ_pos _
  | call t ts => exact Nat.add_pos_left t.words_pos _

theorem Phrase.words_joined (operator : Operator) (q : Phrase) :
    ∀ p : Phrase, (p.joined operator q).term.words = p.term.words + q.term.words
  | .operand _ => rfl
  | .operation o _ p => by
    rw [Phrase.joined, Phrase.term, Term.words, Phrase.words_joined operator q p, Phrase.term,
      Term.words, Nat.add_assoc]

theorem Phrase.words_signed (sign : Sign) : ∀ p : Phrase, (p.signed sign).term.words = p.term.words
  | .operand _ => rfl
  | .operation .. => rfl

theorem Operand.words_followed {ts : Suffixes} {k : Nat}
    (h : ∀ t : Term, (ts.apply t).words = t.words + k) :
    ∀ o : Operand, (o.followed ts).term.words = o.term.words + k
  | .signed _ o => Operand.words_followed h o
  | .word w ss => by rw [Operand.followed, Operand.term, Suffixes.apply_append, h, Operand.term]
  | .group p ss => by rw [Operand.followed, Operand.term, Suffixes.apply_append, h, Operand.term]

theorem Phrase.words_followed {ts : Suffixes} {k : Nat}
    (h : ∀ t : Term, (ts.apply t).words = t.words + k) :
    ∀ p : Phrase, (p.followed ts).term.words = p.term.words + k
  | .operand o => o.words_followed h
  | .operation o _ p => by
    rw [Phrase.followed, Phrase.term, Term.words, Phrase.words_followed h p, Phrase.term,
      Term.words, Nat.add_assoc]

theorem Phrase.term_atPlace (p : Phrase) (place : Place) : (p.atPlace place).term = p.term := by
  cases place <;> rfl

/-- What a phrase reads back as does not depend on the place of the term. -/
theorem Term.term_phrase_operand : ∀ t : Term, (t.phrase .operand).term = (t.phrase .free).term
  | .name _ | .unary .. | .member .. | .call .. => rfl
  | .binary .. => by rw [Term.phrase, Term.phrase, Phrase.term_atPlace, Phrase.term_atPlace]

mutual

/-- A phrase has the words of the term. -/
theorem Term.words_phrase (place : Place) : ∀ t : Term, (t.phrase place).term.words = t.words
  | .name _ => rfl
  | .binary operator l r => by
    rw [Term.phrase, Phrase.term_atPlace, Phrase.words_joined, Term.words_phrase .operand l,
      Term.words_phrase .operand r, Term.words]
  | .unary sign t => by
    rw [Term.phrase, Phrase.words_signed, Term.words_phrase .operand t, Term.words]
  | .member t w => by
    rw [Term.phrase, Phrase.words_followed (fun _ => rfl), Term.words_phrase .free t, Term.words]
  | .call t ts => by
    rw [Term.phrase, Phrase.words_followed (fun _ => rfl), Term.words_phrase .free t,
      Term.words_phrases ts, Term.words]

theorem Term.words_phrases :
    ∀ ts : List Term, Term.wordsList (Term.phrases ts).terms = Term.wordsList ts
  | [] => rfl
  | t :: ts => by
    rw [Term.phrases, Arguments.terms, Term.wordsList, Term.words_phrase .free t,
      Term.words_phrases ts, Term.wordsList]

end

/-- Whether the outermost part of a term is a binary operator or a sign. -/
def Term.isOperation : Term → Bool
  | .binary .. | .unary .. => true
  | _ => false

/-- A phrase with suffixes reads back as an operation, or as the suffixes on the whole of what the
phrase reads back as. -/
theorem Phrase.term_followed {ts : Suffixes} {p : Phrase}
    (h : (p.followed ts).term.isOperation = false) : (p.followed ts).term = ts.apply p.term := by
  cases p with
  | operation o operator p => exact Bool.noConfusion (show true = false from h)
  | operand o =>
    cases o with
    | signed sign o => exact Bool.noConfusion (show true = false from h)
    | word w ss => exact Suffixes.apply_append ts ss _
    | group p ss => exact Suffixes.apply_append ts ss _

theorem Term.Grouped.primary_of_followed {t : Term} (h : t.Grouped) {ts : Suffixes}
    (hts : ((t.phrase .free).followed ts).term.isOperation = false) : t.Primary := by
  cases h with
  | primary h => exact h
  | binary hl hr =>
    obtain ⟨o, hleft, -⟩ := hl.phrase_operand
    rw [Term.phrase, hleft] at hts
    exact Bool.noConfusion (show true = false from hts)
  | unary h =>
    obtain ⟨o, hphrase, -⟩ := h.phrase_operand
    rw [Term.phrase, hphrase] at hts
    exact Bool.noConfusion (show true = false from hts)

theorem Term.term_phrase_binary {operator : Operator} {l r : Term}
    (h : ((Term.binary operator l r).phrase .free).term = .binary operator l r) :
    (l.phrase .free).term = l ∧ (r.phrase .free).term = r := by
  cases hleft : l.phrase .operand with
  | operand o =>
    rw [Term.phrase, hleft, Phrase.atPlace, Phrase.joined, Phrase.term, Term.binary.injEq] at h
    obtain ⟨-, hl, hr⟩ := h
    rw [← l.term_phrase_operand, ← r.term_phrase_operand, hleft]
    exact ⟨hl, hr⟩
  | operation o operator' p =>
    -- The first operator is read as the outermost one, so words of `l` would be words of `r`.
    rw [Term.phrase, hleft, Phrase.atPlace, Phrase.joined, Phrase.term, Term.binary.injEq] at h
    have hwords := Phrase.words_joined operator (r.phrase .operand) p
    rw [h.2.2, r.words_phrase] at hwords
    exact absurd p.term.words_pos (by omega)

theorem Term.term_phrase_unary {sign : Sign} {t : Term}
    (h : ((Term.unary sign t).phrase .free).term = .unary sign t) :
    (t.phrase .free).term = t := by
  cases hphrase : t.phrase .operand with
  | operand o =>
    rw [Term.phrase, hphrase, Phrase.signed, Phrase.term, Operand.term, Term.unary.injEq] at h
    rw [← t.term_phrase_operand, hphrase]
    exact h.2
  | operation o operator p =>
    rw [Term.phrase, hphrase, Phrase.signed, Phrase.term] at h
    cases h

mutual

/-- A term that its phrase reads back as is grouped. -/
theorem Term.grouped_of_term_phrase :
    ∀ t : Term, (t.phrase .free).term = t → t.Grouped
  | .name w, _ => .primary (.name w)
  | .binary operator l r, h => by
    obtain ⟨hl, hr⟩ := Term.term_phrase_binary h
    exact .binary (Term.grouped_of_term_phrase l hl) (Term.grouped_of_term_phrase r hr)
  | .unary sign t, h => .unary (Term.grouped_of_term_phrase t (Term.term_phrase_unary h))
  | .member t w, h => by
    rw [Term.phrase] at h
    have hop : ((t.phrase .free).followed (.member w .nil)).term.isOperation = false := by
      rw [h]
      rfl
    have hwhole := Phrase.term_followed hop
    rw [h, Suffixes.apply, Suffixes.apply, Term.member.injEq] at hwhole
    have ht : t.Grouped := Term.grouped_of_term_phrase t hwhole.1.symm
    exact .primary (.member (ht.primary_of_followed hop))
  | .call t ts, h => by
    rw [Term.phrase] at h
    have hop : ((t.phrase .free).followed (.call (Term.phrases ts) .nil)).term.isOperation
        = false := by
      rw [h]
      rfl
    have hwhole := Phrase.term_followed hop
    rw [h, Suffixes.apply, Suffixes.apply, Term.call.injEq] at hwhole
    have ht : t.Grouped := Term.grouped_of_term_phrase t hwhole.1.symm
    have hts := Term.grouped_of_terms_phrases ts hwhole.2.symm
    exact .primary (.call (ht.primary_of_followed hop) hts)

theorem Term.grouped_of_terms_phrases :
    ∀ ts : List Term, (Term.phrases ts).terms = ts → ∀ t ∈ ts, t.Grouped
  | [], _ => nofun
  | t :: ts, h => by
    rw [Term.phrases, Arguments.terms, List.cons.injEq] at h
    exact List.forall_mem_cons.2
      ⟨Term.grouped_of_term_phrase t h.1, Term.grouped_of_terms_phrases ts h.2⟩

end

theorem Term.term_phrase_iff {t : Term} : (t.phrase .free).term = t ↔ t.Grouped :=
  ⟨t.grouped_of_term_phrase, Term.Grouped.term_phrase⟩

/-! ## Injectivity -/

/-- Trees of terms have the same text exactly when the terms are written as the same phrase.  A
term is grouped exactly when its text is that of a phrase that reads back as the term.  Grouped
terms have the same text exactly when they have the same tree, up to spans. -/
theorem expression_injective {t t' : Term} {n n' : Node} (hn : n.eraseSpans = t.node)
    (hn' : n'.eraseSpans = t'.node) :
    (expression .free n = expression .free n' ↔ t.phrase .free = t'.phrase .free) ∧
    (t.Grouped ↔ ∃ p : Phrase, p.text = (expression .free n).toList ∧ p.term = t) ∧
    (t.Grouped → t'.Grouped →
      (expression .free n = expression .free n' ↔ n.eraseSpans = n'.eraseSpans)) := by
  have htext : (expression .free n).toList = (t.phrase .free).text := by
    rw [← expression_eraseSpans, hn, t.toList_expression]
  refine ⟨expression_eq_iff hn hn', ⟨fun ht => ?_, ?_⟩, fun ht ht' => ⟨fun heq => ?_, fun h => ?_⟩⟩
  · exact ⟨t.phrase .free, htext.symm, ht.term_phrase⟩
  · rintro ⟨p, hp, hterm⟩
    obtain rfl : p = t.phrase .free := Phrase.text_injective (hp.trans htext)
    exact Term.term_phrase_iff.1 hterm
  · have hphrase : t.phrase .free = t'.phrase .free := (expression_eq_iff hn hn').1 heq
    have hterm : t = t' := by rw [← ht.term_phrase, hphrase, ht'.term_phrase]
    rw [hn, hn', hterm]
  · rw [← expression_eraseSpans .free n, h, expression_eraseSpans]

/-- A word of one letter. -/
def Word.letter (c : Char) (h : c.isAlpha = true) : Word where
  text := String.singleton c
  ne_nil := by simp
  isAlpha := by simpa using h

/-- A quotient below a sign and one whose dividend has the sign, told apart by their texts. -/
theorem expression_injective_quotient :
    let a := Word.letter 'a' rfl
    let f := Word.letter 'f' rfl
    let dividend := Term.member (.call (.name f) [.binary .plus (.name a) (.name a), .name f]) a
    let t := Term.unary .minus (.binary .over dividend (.unary .not (.name a)))
    let t' := Term.binary .over (.unary .minus dividend) (.unary .not (.name a))
    t.node.eraseSpans = t.node ∧ t'.node.eraseSpans = t'.node ∧ t.Grouped ∧ t'.Grouped ∧
      (∃ p : Phrase, p.text = (expression .free t.node).toList ∧ p.term = t) ∧
      expression .free t.node ≠ expression .free t'.node := by
  intro a f dividend t t'
  have hname (w : Word) : (Term.name w).Grouped := .primary (.name w)
  have hdividend : dividend.Grouped := by
    refine .primary (.member (.call (.name f) ?_))
    exact List.forall_mem_cons.2 ⟨.binary (hname a) (hname a), by simpa using hname f⟩
  have ht : t.Grouped := .unary (.binary hdividend (.unary (hname a)))
  have ht' : t'.Grouped := .binary (.unary hdividend) (.unary (hname a))
  have herase : t.node.eraseSpans = t.node := rfl
  have herase' : t'.node.eraseSpans = t'.node := rfl
  obtain ⟨-, hreads, hinjective⟩ := expression_injective herase herase'
  refine ⟨herase, herase', ht, ht', hreads.1 ht, fun heq => ?_⟩
  have hnodes : t.node.eraseSpans = t'.node.eraseSpans := (hinjective ht ht').1 heq
  cases hnodes

/-- An access on a sum is written as an access on its last operand, and a call of a negation as the
negation of a call. -/
theorem expression_access_of_sum :
    let a := Word.letter 'a' rfl
    let b := Word.letter 'b' rfl
    let c := Word.letter 'c' rfl
    let access := Term.member (.binary .plus (.name a) (.name b)) c
    let sum := Term.binary .plus (.name a) (.member (.name b) c)
    let call := Term.call (.unary .minus (.name a)) []
    let negation := Term.unary .minus (.call (.name a) [])
    (expression .free access.node = "a + b.c" ∧ expression .free sum.node = "a + b.c" ∧
      access.node.eraseSpans ≠ sum.node.eraseSpans) ∧
    (expression .free call.node = "-a()" ∧ expression .free negation.node = "-a()" ∧
      call.node.eraseSpans ≠ negation.node.eraseSpans) := by
  intro a b c access sum call negation
  exact ⟨⟨by decide, by decide, nofun⟩, ⟨by decide, by decide, nofun⟩⟩

end Scaffold.Code
