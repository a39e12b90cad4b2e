import Scaffold.Proofs.Number.Digits
import Scaffold.Proofs.Text.Quoted
import Scaffold.Proofs.Tree.Diagnosis
import Scaffold.Proofs.Tree.Outline

/-!
# Reading an outline back

An outline has no brackets.  What is below a node can be told by the indentation
of its lines only, and what comes after the kind of a node may look like anything,
a position included.

The *heading* of a line is its level and its kind.  It can be read from the line,
since a kind has no blanks and the line ends after it or goes on with a blank
(`Heads.cancel`).  So the text of an outline determines its headings
(`headings_of_text`).  The headings of a tree in pre-order determine its shape,
since the headings below a node go on until there is one that is not deeper than
the node (`Node.sameShape_of_headings`).

* `Node.outline_determines_shape`: trees with the same outline have the same kinds
  and the same numbers of children at all addresses.
-/

namespace Scaffold

/-! ## Lines -/

/-- What stands in a line after the kind: nothing, or a text that begins with a blank. -/
structure SetOff (rest : List Char) : Prop where
  blank : ∀ c ∈ rest.head?, c = ' '
  line : '\n' ∉ rest

namespace SetOff
variable {r s : List Char}

theorem nil : SetOff [] := ⟨nofun, List.not_mem_nil⟩

theorem cons (h : '\n' ∉ r) : SetOff (' ' :: r) := by
  refine ⟨fun c hc => ?_, ?_⟩
  · exact (Option.some.inj hc).symm
  · rw [List.mem_cons, not_or]
    exact ⟨by decide, h⟩

theorem append (hr : SetOff r) (hs : SetOff s) : SetOff (r ++ s) := by
  refine ⟨?_, ?_⟩
  · cases r with
    | nil => exact hs.blank
    | cons c r => exact hr.blank
  · rw [List.mem_append, not_or]
    exact ⟨hr.line, hs.line⟩

/-- What is set off goes on, with the end of its line, in a way that no kind does. -/
theorem head?_newline (h : SetOff r) :
    ∀ c ∈ (r ++ '\n' :: s).head?, (c != ' ' && c != '\n') = false := by
  cases r with
  | nil =>
    intro c hc
    cases hc
    rfl
  | cons d r =>
    intro c hc
    cases hc
    rw [h.blank d rfl]
    rfl

end SetOff

/-- A line with its heading: two blanks for each level, the kind, and what is set off from it. -/
inductive Heads : Nat × String → List Char → Prop where
  | intro {level : Nat} {kind : String} {rest : List Char} :
      kind ≠ "" → (∀ c ∈ kind.toList, (c != ' ' && c != '\n') = true) → SetOff rest →
      Heads (level, kind) (List.replicate (2 * level) ' ' ++ (kind.toList ++ (rest ++ ['\n'])))

namespace Heads
variable {a b : Nat × String} {x y r s : List Char}

theorem ne_nil (h : Heads a x) : x ≠ [] := by
  cases h
  simp

/-- A line at the front of a text can be told from the rest, and its heading from the line. -/
theorem cancel (ha : Heads a x) (hb : Heads b y) (h : x ++ r = y ++ s) : a = b ∧ r = s := by
  have hstart {kind : String} {cs : List Char} (hne : kind ≠ "")
      (hkind : ∀ c ∈ kind.toList, (c != ' ' && c != '\n') = true) :
      ∀ c ∈ (kind.toList ++ cs).head?, (c == ' ') = false := by
    cases htext : kind.toList with
    | nil => exact absurd (String.toList_eq_nil_iff.1 htext) hne
    | cons d ds =>
      intro c hc
      cases hc
      have hd := hkind d (htext ▸ List.mem_cons_self)
      simp_all
  have hline {rest : List Char} (h : SetOff rest) : ∀ c ∈ rest, (c != '\n') = true := by
    intro c hc
    rw [bne_iff_ne]
    rintro rfl
    exact h.line hc
  cases ha with
  | @intro level kind rest hne hkind hrest =>
  cases hb with
  | @intro level' kind' rest' hne' hkind' hrest' =>
  simp only [List.append_assoc, List.singleton_append] at h
  -- Three runs are read: the blanks up to the kind, the kind, and what is left of the line.
  obtain ⟨hblanks, h⟩ := Text.run_cancel (p := fun c => c == ' ') (by simp) (by simp)
    (hstart hne hkind) (hstart hne' hkind') h
  obtain ⟨hword, h⟩ := Text.run_cancel hkind hkind' hrest.head?_newline hrest'.head?_newline h
  obtain ⟨-, h⟩ := Text.run_cancel (hline hrest) (hline hrest') (by simp) (by simp) h
  have hlevel : level = level' := by
    have hlength := congrArg List.length hblanks
    rw [List.length_replicate, List.length_replicate] at hlength
    omega
  rw [hlevel, String.toList_inj.1 hword]
  exact ⟨rfl, (List.cons.inj h).2⟩

end Heads

/-- The headings of lines can be read from the text. -/
theorem headings_of_text {as bs : List (Nat × String)} {xs ys : List String}
    (ha : List.Forall₂ (fun a x => Heads a x.toList) as xs)
    (hb : List.Forall₂ (fun b y => Heads b y.toList) bs ys)
    (h : String.join xs = String.join ys) : as = bs := by
  induction ha generalizing bs ys with
  | nil =>
    cases hb with
    | nil => rfl
    | cons hy _ =>
      have hempty := congrArg String.toList h
      simp [hy.ne_nil] at hempty
  | cons hx _ ih =>
    cases hb with
    | nil =>
      have hempty := congrArg String.toList h
      simp [hx.ne_nil] at hempty
    | cons hy hb =>
      have htext := congrArg String.toList h
      rw [String.join_cons, String.join_cons, String.toList_append, String.toList_append] at htext
      obtain ⟨rfl, hrest⟩ := hx.cancel hy htext
      rw [ih hb (String.toList_inj.1 hrest)]

/-! ## Entries -/

theorem newline_notMem_repr (k : Int) : '\n' ∉ k.repr.toList := by
  rw [← Int.toString_eq_repr]
  intro hmem
  rcases isNumberChar_toString hmem with hletter | hmark
  · cases hletter
  · exact absurd hmark (by decide)

namespace Node

/-- The heading of a node at a level. -/
def heading (n : Node) (level : Nat) : Nat × String := (level, n.kindName)

/-- The entry of a node is one line that begins with a word. -/
structure FitsLine (n : Node) : Prop where
  type : ∀ type ∈ n.kind.getRight?, type ≠ "" ∧ ' ' ∉ type.toList
  kind : '\n' ∉ n.kindName.toList
  detail : '\n' ∉ n.detail.toList

instance : DecidablePred FitsLine := fun n =>
  decidable_of_iff ((∀ type ∈ n.kind.getRight?, type ≠ "" ∧ ' ' ∉ type.toList) ∧
    '\n' ∉ n.kindName.toList ∧ '\n' ∉ n.detail.toList)
    ⟨fun h => ⟨h.1, h.2.1, h.2.2⟩, fun h => ⟨h.type, h.kind, h.detail⟩⟩

theorem FitsLine.kindName_ne {n : Node} (h : n.FitsLine) :
    n.kindName ≠ "" ∧ ' ' ∉ n.kindName.toList := by
  rw [kindName]
  cases hkind : n.kind with
  | inl kind =>
    refine ⟨kind.name_ne_empty, fun hblank => ?_⟩
    cases kind.isAlpha_of_mem_name ' ' hblank
  | inr type => exact h.type type (Sum.getRight?_eq_some_iff.2 hkind)

theorem heads_entry {n : Node} (h : n.FitsLine) (level : Nat) :
    Heads (n.heading level) (n.entry level).toList := by
  have hdetail : SetOff (if n.detail = "" then "" else " " ++ n.detail).toList := by
    split
    · exact .nil
    · rw [String.toList_append]
      exact .cons h.detail
  have hposition : SetOff (if n.span.isZero then "" else " @" ++ toString n.span.start.line.toInt
      ++ ":" ++ toString n.span.start.column.toInt).toList := by
    split
    · exact .nil
    · refine ⟨?_, ?_⟩
      · simp
      · simp [newline_notMem_repr]
  have hword : ∀ c ∈ n.kindName.toList, (c != ' ' && c != '\n') = true := by
    intro c hc
    rw [Bool.and_eq_true, bne_iff_ne, bne_iff_ne]
    exact ⟨fun heq => h.kindName_ne.2 (heq ▸ hc), fun heq => h.kind (heq ▸ hc)⟩
  have hline := @Heads.intro level _ _ h.kindName_ne.1 hword (hdetail.append hposition)
  simpa [heading, entry] using hline

theorem heads_listing {n : Node} (h : n.Throughout FitsLine) (level : Nat) :
    List.Forall₂ (fun a x => Heads a x.toList) (n.traversal.listing heading level)
      (n.traversal.listing entry level) := by
  induction h generalizing level with
  | @intro n hn _ ih =>
    rw [listing_eq, listing_eq]
    refine .cons (heads_entry hn level) ?_
    have hrow (cs : List Node) (hcs : ∀ c ∈ cs, List.Forall₂ (fun a x => Heads a x.toList)
        (c.traversal.listing heading (level + 1)) (c.traversal.listing entry (level + 1))) :
        List.Forall₂ (fun a x => Heads a x.toList)
          (cs.flatMap fun c => c.traversal.listing heading (level + 1))
          (cs.flatMap fun c => c.traversal.listing entry (level + 1)) := by
      induction cs with
      | nil => exact .nil
      | cons c cs ihcs =>
        rw [List.forall_mem_cons] at hcs
        exact List.rel_append hcs.1 (ihcs hcs.2)
    exact hrow n.children fun c hc => ih c hc (level + 1)

/-! ## Shapes -/

/-- The kind of the node at an address and the number of its children. -/
def shapeAt? (n : Node) (address : List Nat) : Option (String × Nat) :=
  (n.lineage? address).map fun l => (l.node.kindName, l.node.children.length)

theorem shapeAt?_nil (n : Node) : n.shapeAt? [] = some (n.kindName, n.children.length) := rfl

theorem shapeAt?_cons (n : Node) (i : Nat) (address : List Nat) :
    n.shapeAt? (i :: address) = n.children[i]?.bind fun c => c.shapeAt? address := by
  rw [shapeAt?, lineage?, Option.map_bind]
  congr 1
  funext c
  rw [Function.comp_apply, Option.map_map]
  rfl

/-- Trees with the same kinds and the same numbers of children. -/
def SameShape (m n : Node) : Prop := ∀ address, m.shapeAt? address = n.shapeAt? address

theorem sameShape_of_children {m n : Node} (hkind : m.kindName = n.kindName)
    (hchildren : List.Forall₂ SameShape m.children n.children) : m.SameShape n := by
  intro address
  cases address with
  | nil => rw [shapeAt?_nil, shapeAt?_nil, hkind, hchildren.length_eq]
  | cons i address =>
    rw [shapeAt?_cons, shapeAt?_cons]
    generalize m.children = ms, n.children = ns at hchildren ⊢
    induction hchildren generalizing i with
    | nil => rfl
    | cons hc _ ih =>
      cases i with
      | zero => exact hc address
      | succ i => exact ih i

/-- Headings that begin above a level, if there are any. -/
def Leaves (level : Nat) (rest : List (Nat × String)) : Prop := ∀ a ∈ rest.head?, a.1 < level

theorem leaves_row {level : Nat} {rest : List (Nat × String)} (h : Leaves level rest)
    (ns : List Node) :
    Leaves (level + 1) ((ns.flatMap fun n => n.traversal.listing heading level) ++ rest) := by
  cases ns with
  | nil => exact fun a ha => Nat.lt_succ_of_lt (h a ha)
  | cons n ns =>
    rw [List.flatMap_cons, listing_eq]
    intro a ha
    cases ha
    exact Nat.lt_succ_self level

/-- Headings that leave a level are not those of a node there. -/
theorem not_leaves_listing {level : Nat} {n : Node} {rest : List (Nat × String)} :
    ¬ Leaves level (n.traversal.listing heading level ++ rest) := by
  intro h
  rw [listing_eq] at h
  exact Nat.lt_irrefl level (h _ rfl)

/-- Nodes in a row can be told from the headings at their level and below. -/
theorem sameShape_row {ms ns : List Node} {level : Nat} {r s : List (Nat × String)}
    (hms : ∀ m ∈ ms, ∀ {n : Node} {r s : List (Nat × String)}, Leaves (level + 1) r →
      Leaves (level + 1) s →
      m.traversal.listing heading level ++ r = n.traversal.listing heading level ++ s →
      m.SameShape n ∧ r = s)
    (hr : Leaves level r) (hs : Leaves level s)
    (h : (ms.flatMap fun m => m.traversal.listing heading level) ++ r
      = (ns.flatMap fun n => n.traversal.listing heading level) ++ s) :
    List.Forall₂ SameShape ms ns ∧ r = s := by
  induction ms generalizing ns with
  | nil =>
    cases ns with
    | nil => exact ⟨.nil, h⟩
    | cons n ns =>
      rw [List.flatMap_nil, List.nil_append, List.flatMap_cons, List.append_assoc] at h
      rw [h] at hr
      exact absurd hr not_leaves_listing
  | cons m ms ih =>
    rw [List.forall_mem_cons] at hms
    rw [List.flatMap_cons, List.append_assoc] at h
    cases ns with
    | nil =>
      rw [List.flatMap_nil, List.nil_append] at h
      rw [← h] at hs
      exact absurd hs not_leaves_listing
    | cons n ns =>
      rw [List.flatMap_cons, List.append_assoc] at h
      -- The first node is followed by the rest of its row, so no heading below it comes after it.
      obtain ⟨hmn, hrest⟩ := hms.1 (leaves_row hr ms) (leaves_row hs ns) h
      obtain ⟨hrow, hrs⟩ := ih hms.2 hrest
      exact ⟨.cons hmn hrow, hrs⟩

/-- The headings of a tree, in front of headings that are not below its root, tell its shape. -/
theorem sameShape_of_headings {m n : Node} {level : Nat} {r s : List (Nat × String)}
    (hr : Leaves (level + 1) r) (hs : Leaves (level + 1) s)
    (h : m.traversal.listing heading level ++ r = n.traversal.listing heading level ++ s) :
    m.SameShape n ∧ r = s := by
  induction m using induction_children generalizing n level r s with
  | step m ih =>
    rw [listing_eq, listing_eq, List.cons_append, List.cons_append] at h
    obtain ⟨hroot, hbelow⟩ := List.cons.inj h
    obtain ⟨hrow, hrs⟩ := sameShape_row (fun c hc => ih c hc) hr hs hbelow
    exact ⟨sameShape_of_children (congrArg Prod.snd hroot) hrow, hrs⟩

/-- Trees with the same outline have the same kinds, and the same numbers of children, at all
addresses. -/
theorem outline_determines_shape {m n : Node} (hm : m.Throughout FitsLine)
    (hn : n.Throughout FitsLine) {o o' : Outliner}
    (h : (o.outline (some m)).text = (o'.outline (some n)).text) (address : List Nat) :
    m.shapeAt? address = n.shapeAt? address := by
  rw [Outliner.text_outline, Outliner.text_outline] at h
  have hheadings := headings_of_text (heads_listing hm 0) (heads_listing hn 0) h
  have hend : Leaves 1 [] := nofun
  have hshape := sameShape_of_headings hend hend (congrArg (· ++ []) hheadings)
  exact hshape.1 address

/-- Two calls with the same outline.  In one of them the name looks like a name with a position, and
there is an absent argument. -/
theorem outline_determines_shape_call :
    let m : Node := .callExpression (some (.identifier ⟨"f @1:2", {}⟩))
      [none, some (.unknown "Spread" {})] {}
    let n : Node := .callExpression (some (.identifier ⟨"f", ⟨⟨1, 2⟩, ⟨1, 3⟩⟩⟩))
      [some (.unknown "Spread" {})] {}
    m.Throughout FitsLine ∧ n.Throughout FitsLine ∧ outline (some m) = outline (some n) ∧ m ≠ n ∧
      ∀ address, m.shapeAt? address = n.shapeAt? address := by
  intro m n
  have hm : m.Throughout FitsLine := by
    decide +kernel
  have hn : n.Throughout FitsLine := by
    decide +kernel
  have htext : outline (some m) = outline (some n) := by
    decide +kernel
  have hne : m ≠ n := by
    simp [m, n]
  exact ⟨hm, hn, htext, hne, outline_determines_shape hm hn htext⟩

end Node

end Scaffold
