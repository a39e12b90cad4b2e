import Scaffold.Proofs.Files.Writing

/-!
# Units in files

A file sink makes the directories above a destination and then writes the file.
Whatever comes of that, directories are all that is added beside the file, and
nothing is taken away:

* `FileTree.Grows`: a tree with more directories, which is all that a failed
  delivery leaves behind;
* `FileTree.Puts`: a tree with a unit where its destination leads, which is what a
  successful one leaves behind.

`FileTree.writeUnit_cases` says that there is no third case.  In both the tree
`Keeps` what was there, directories as directories and files as files, so a
destination leads to the same place ever after (`FileTree.Keeps.locate`).

* `Workshop.deliveries_touch_destinations`: after any number of deliveries to file
  sinks a file holds the last unit that was delivered there, or what it held before.
-/

namespace Scaffold

namespace FileTree
variable {t t' t'' : FileTree} {l : Location}

/-! ## Trees that keep what they have -/

/-- What a tree holds stays there, directories as directories and files as files. -/
structure Keeps (t t' : FileTree) : Prop where
  /-- The working directory is the same. -/
  work : t'.work = t.work
  /-- There is a directory where there was one, and a file where there was one. -/
  entry : ∀ l e, t.get? l = some e → ∃ e', t'.get? l = some e' ∧ (e' = .directory ↔ e = .directory)

theorem Keeps.refl (t : FileTree) : Keeps t t where
  work := rfl
  entry _ e h := ⟨e, h, .rfl⟩

theorem Keeps.trans (h : Keeps t t') (h' : Keeps t' t'') : Keeps t t'' where
  work := h'.work.trans h.work
  entry l e he := by
    obtain ⟨e', he', hkind⟩ := h.entry l e he
    obtain ⟨e'', he'', hkind'⟩ := h'.entry l e' he'
    exact ⟨e'', he'', hkind'.trans hkind⟩

theorem Keeps.directory (h : Keeps t t') (hl : t.get? l = some .directory) :
    t'.get? l = some .directory := by
  obtain ⟨e, he, hkind⟩ := h.entry l _ hl
  rw [he, hkind.2 rfl]

/-- A path that leads somewhere leads there in every tree that keeps the entries. -/
theorem Keeps.locate (h : Keeps t t') {path : String} (hpath : t.locate path = .ok l) :
    t'.locate path = .ok l := by
  rw [FileTree.locate] at hpath ⊢
  split at hpath
  · cases hpath
  split at hpath
  · cases hpath
  next hempty =>
  have hstart : t'.start path = t.start path := by rw [start, start, h.work]
  rw [if_neg hempty, hstart]
  refine walk_mono (fun k hk => ?_) (fun k hk => ?_) hpath
  · simp only [isDirectory, decide_eq_true_eq] at hk ⊢
    exact h.directory hk
  · obtain ⟨e, he⟩ := Option.isSome_iff_exists.1 hk
    obtain ⟨e', he', -⟩ := h.entry k e he
    rw [he']
    rfl

/-! ## More directories -/

/-- A tree with more directories, and no other change. -/
structure Grows (t t' : FileTree) : Prop where
  /-- The working directory is the same. -/
  work : t'.work = t.work
  /-- Directories are added where there was nothing. -/
  entry : ∀ l, t'.get? l = t.get? l ∨ t.get? l = none ∧ t'.get? l = some .directory

theorem Grows.refl (t : FileTree) : Grows t t where
  work := rfl
  entry _ := .inl rfl

theorem Grows.trans (h : Grows t t') (h' : Grows t' t'') : Grows t t'' where
  work := h'.work.trans h.work
  entry l := by
    rcases h'.entry l with heq | ⟨hnone, hmade⟩
    · rw [heq]
      exact h.entry l
    · rcases h.entry l with heq | ⟨-, hmade'⟩
      · exact .inr ⟨heq ▸ hnone, hmade⟩
      · rw [hnone] at hmade'
        cases hmade'

theorem Grows.keeps (h : Grows t t') : Keeps t t' where
  work := h.work
  entry l e he := by
    rcases h.entry l with heq | ⟨hnone, -⟩
    · exact ⟨e, heq.trans he, .rfl⟩
    · rw [hnone] at he
      cases he

/-- The files of a tree with more directories are those of the tree. -/
theorem Grows.file_iff (h : Grows t t') {e : Entry} (he : e ≠ .directory) :
    t'.get? l = some e ↔ t.get? l = some e := by
  rcases h.entry l with heq | ⟨hnone, hmade⟩
  · rw [heq]
  · rw [hnone, hmade]
    simp [he.symm]

theorem grows_set_directory (h : t.get? l = none) : Grows t (t.set l .directory) where
  work := rfl
  entry k := by
    have hl : t.isDirectory l = false := by simp [isDirectory, h]
    rw [get?_set_of_not_directory hl]
    by_cases hk : k = l
    · rw [if_pos hk, hk]
      exact .inr ⟨h, rfl⟩
    · rw [if_neg hk]
      exact .inl rfl

/-- Making directories adds directories, also when one of them cannot be made. -/
theorem grows_makeFrom (absolute : Bool) (names made : List String) (t : FileTree) (l : Location) :
    Grows t (t.makeFrom absolute made l names).2 := by
  induction names generalizing t made l with
  | nil => exact .refl t
  | cons name names ih =>
    rw [makeFrom]
    dsimp only
    split
    · exact .refl t
    split
    · exact ih _ t _
    split
    · exact .refl t
    split
    · exact ih _ t _
    · exact .refl t
    next hnone => exact (grows_set_directory hnone).trans (ih _ _ _)

/-! ## One unit -/

/-- A tree with a unit at a location where its destination leads, and with more directories. -/
structure Puts (t : FileTree) (dest code : String) (l : Location) (t' : FileTree) : Prop where
  /-- What was there is kept. -/
  keeps : Keeps t t'
  /-- The destination leads to the location. -/
  locate : t'.locate dest = .ok l
  /-- The unit is there. -/
  here : t'.get? l = some (.file code)
  /-- Directories are all that is added elsewhere. -/
  elsewhere : ∀ k, k ≠ l → t'.get? k = t.get? k ∨ t.get? k = none ∧ t'.get? k = some .directory

theorem puts_set {made : FileTree} {dest : String} (hmade : Grows t made)
    (htarget : made.target dest = .ok l) (code : String) :
    Puts t dest code l (made.set l (.file code)) := by
  obtain ⟨-, -, hl, -⟩ := target_eq_ok htarget
  have hget := get?_set_of_not_directory hl (.file code)
  have hkeeps : Keeps made (made.set l (.file code)) := by
    refine ⟨rfl, fun k e he => ?_⟩
    rw [hget]
    by_cases hk : k = l
    · -- a file takes the place of a file
      have hfile : e ≠ .directory := by
        rintro rfl
        simp [isDirectory, ← hk, he] at hl
      exact ⟨_, if_pos hk, by simp [hfile]⟩
    · exact ⟨e, by rw [if_neg hk, he], .rfl⟩
  refine ⟨hmade.keeps.trans hkeeps, locate_target htarget code, by rw [hget, if_pos rfl], ?_⟩
  intro k hk
  rw [hget, if_neg hk]
  exact hmade.entry k

/-- What writing a unit does: it fails and adds directories at most, or it puts the unit where its
destination leads. -/
theorem writeUnit_cases (t : FileTree) (dest code : String) :
    (∃ fault, (t.writeUnit dest code).1 = some fault ∧ Grows t (t.writeUnit dest code).2) ∨
      (t.writeUnit dest code).1 = none ∧ ∃ l, Puts t dest code l (t.writeUnit dest code).2 := by
  have hgrows : Grows t (t.makeParents dest).2 := grows_makeFrom _ _ _ _ _
  rw [writeUnit]
  cases hparents : t.makeParents dest with
  | mk fault made =>
    rw [hparents] at hgrows
    cases fault with
    | some fault => exact .inl ⟨fault, rfl, hgrows⟩
    | none =>
      dsimp only [write]
      cases htarget : made.target dest with
      | error cause => exact .inl ⟨_, rfl, hgrows⟩
      | ok l => exact .inr ⟨rfl, l, puts_set hgrows htarget code⟩

end FileTree

/-! ## Deliveries -/

/-- A unit that is handed to a sink. -/
structure Delivery where
  /-- The sink. -/
  sink : Nat
  /-- The identity of the unit. -/
  stamp : Stamp
  /-- Where the unit is to go. -/
  dest : String
  /-- Its text. -/
  code : String
  deriving DecidableEq, Repr

/-- The last of the deliveries whose destinations lead to a location. -/
def FileTree.lastTo? (t : FileTree) (l : Location) (ds : List Delivery) : Option Delivery :=
  (ds.filter fun d => t.locate d.dest = .ok l).getLast?

theorem FileTree.lastTo?_cons (t : FileTree) (l : Location) (d : Delivery) (ds : List Delivery) :
    t.lastTo? l (d :: ds) =
      (t.lastTo? l ds).or (if t.locate d.dest = .ok l then some d else none) := by
  rw [lastTo?, lastTo?, List.filter_cons]
  by_cases h : t.locate d.dest = .ok l <;> simp [h, List.getLast?_cons]

namespace Workshop

/-- A unit handed to its sink. -/
def deliver (w : Workshop) (d : Delivery) : Step Unit := w.write d.sink d.stamp d.dest d.code

/-- The workshop after deliveries, one after the other. -/
def deliverAll (w : Workshop) (ds : List Delivery) : Workshop :=
  ds.foldl (fun w d => (w.deliver d).after) w

/-- The deliveries that succeed, in order. -/
def delivered (w : Workshop) : List Delivery → List Delivery
  | [] => []
  | d :: ds => match (w.deliver d).outcome with
    | .ok _ => d :: (w.deliver d).after.delivered ds
    | .error _ => (w.deliver d).after.delivered ds

variable {w : Workshop} {d : Delivery} {ds : List Delivery} {l : Location}

/-- What a delivery to a file sink does. -/
theorem deliver_cases (h : w.sinks[d.sink]? = some .file) :
    (w.deliver d).after.sinks = w.sinks ∧
      ((∃ fault, (w.deliver d).outcome = .error fault ∧
          w.files.Grows (w.deliver d).after.files) ∨
        (w.deliver d).outcome = .ok () ∧
          ∃ l, w.files.Puts d.dest d.code l (w.deliver d).after.files) := by
  have hcases := w.files.writeUnit_cases d.dest d.code
  rw [deliver, write, h]
  dsimp only
  cases hwrite : w.files.writeUnit d.dest d.code with
  | mk fault files =>
    rw [hwrite] at hcases
    cases fault with
    | none =>
      obtain ⟨fault, hfault, -⟩ | ⟨-, hputs⟩ := hcases
      · cases hfault
      · exact ⟨rfl, .inr ⟨rfl, hputs⟩⟩
    | some fault =>
      obtain ⟨-, -, hgrows⟩ | ⟨hnone, -⟩ := hcases
      · exact ⟨rfl, .inl ⟨_, rfl, hgrows⟩⟩
      · cases hnone

theorem keeps_deliver (h : w.sinks[d.sink]? = some .file) :
    w.files.Keeps (w.deliver d).after.files := by
  obtain ⟨-, ⟨_, -, hgrows⟩ | ⟨-, _, hputs⟩⟩ := deliver_cases h
  · exact hgrows.keeps
  · exact hputs.keeps

/-- Deliveries to file sinks keep what is there, and the sinks. -/
theorem keeps_deliverAll (h : ∀ d ∈ ds, w.sinks[d.sink]? = some .file) :
    w.files.Keeps (w.deliverAll ds).files ∧ (w.deliverAll ds).sinks = w.sinks := by
  induction ds generalizing w with
  | nil => exact ⟨.refl _, rfl⟩
  | cons d ds ih =>
    rw [List.forall_mem_cons] at h
    have hsinks := (deliver_cases h.1).1
    obtain ⟨hkeeps, hsinks'⟩ := ih (w := (w.deliver d).after) (by rw [hsinks]; exact h.2)
    exact ⟨(keeps_deliver h.1).trans hkeeps, hsinks'.trans hsinks⟩

/-- After deliveries a location without a directory holds the last unit that was delivered there, or
what it held before. -/
theorem get?_deliverAll (h : ∀ d ∈ ds, w.sinks[d.sink]? = some .file)
    (hl : (w.deliverAll ds).files.get? l ≠ some .directory) :
    (w.deliverAll ds).files.get? l =
      (((w.deliverAll ds).files.lastTo? l (w.delivered ds)).map fun d => .file d.code).or
        (w.files.get? l) := by
  induction ds generalizing w with
  | nil => rfl
  | cons d ds ih =>
    rw [List.forall_mem_cons] at h
    obtain ⟨hsinks, hcases⟩ := deliver_cases h.1
    have hrest : ∀ d' ∈ ds, (w.deliver d).after.sinks[d'.sink]? = some .file := by
      rw [hsinks]
      exact h.2
    have hkeeps := (keeps_deliverAll hrest).1
    -- the location had no directory right after the first delivery either
    have hnext : (w.deliver d).after.files.get? l ≠ some .directory :=
      fun hdirectory => hl (hkeeps.directory hdirectory)
    have hrun : w.deliverAll (d :: ds) = (w.deliver d).after.deliverAll ds := rfl
    rw [hrun] at hl ⊢
    rw [ih hrest hl, delivered]
    obtain ⟨fault, houtcome, hgrows⟩ | ⟨houtcome, k, hputs⟩ := hcases
    · rw [houtcome]
      rcases hgrows.entry l with heq | ⟨-, hmade⟩
      · rw [heq]
      · exact absurd hmade hnext
    · rw [houtcome]
      dsimp only
      rw [FileTree.lastTo?_cons, hkeeps.locate hputs.locate, Option.map_or, Option.or_assoc]
      by_cases hk : k = l
      · subst hk
        rw [hputs.here, if_pos rfl]
        rfl
      · rw [if_neg (by simpa using hk)]
        rcases hputs.elsewhere l (Ne.symm hk) with heq | ⟨-, hmade⟩
        · rw [heq]
          rfl
        · exact absurd hmade hnext

/-- Deliveries to file sinks touch their destinations only.
* Afterwards a location without a directory holds the unit of the last successful delivery whose
  destination leads there, or else what it held at first.
* A successful delivery puts its unit where its destination leads, then and afterwards.
* A failed delivery leaves all files as they are and adds none.
* No delivery takes away a directory or a file, or puts the one in the place of the other. -/
theorem deliveries_touch_destinations (h : ∀ d ∈ ds, w.sinks[d.sink]? = some .file) :
    let after := (w.deliverAll ds).files
    (∀ l, after.get? l ≠ some .directory → after.get? l =
      ((after.lastTo? l (w.delivered ds)).map fun d => .file d.code).or (w.files.get? l)) ∧
    ∀ before d rest, ds = before ++ d :: rest →
      let step := (w.deliverAll before).deliver d
      let t := (w.deliverAll before).files
      let t' := step.after.files
      (step.outcome = .ok () → ∃ l, t'.locate d.dest = .ok l ∧ t'.get? l = some (.file d.code) ∧
        after.locate d.dest = .ok l) ∧
      (∀ fault, step.outcome = .error fault → ∀ l e, e ≠ .directory →
        (t'.get? l = some e ↔ t.get? l = some e)) ∧
      ∀ l e, t.get? l = some e →
        ∃ e', t'.get? l = some e' ∧ (e' = .directory ↔ e = .directory) := by
  intro after
  refine ⟨fun l => get?_deliverAll h, ?_⟩
  rintro before d rest rfl
  rw [List.forall_mem_append, List.forall_mem_cons] at h
  obtain ⟨hbefore, hd, hrest⟩ := h
  have hsinks := (keeps_deliverAll hbefore).2
  rw [← hsinks] at hd hrest
  obtain ⟨hsinks', hcases⟩ := deliver_cases hd
  rw [← hsinks'] at hrest
  have hafter : after = (((w.deliverAll before).deliver d).after.deliverAll rest).files := by
    simp [after, deliverAll]
  refine ⟨fun hok => ?_, fun fault herror => ?_, (keeps_deliver hd).entry⟩
  · obtain ⟨fault, herror, -⟩ | ⟨-, l, hputs⟩ := hcases
    · rw [herror] at hok
      cases hok
    · refine ⟨l, hputs.locate, hputs.here, ?_⟩
      rw [hafter]
      exact (keeps_deliverAll hrest).1.locate hputs.locate
  · obtain ⟨-, -, hgrows⟩ | ⟨hok, -⟩ := hcases
    · exact fun l e => hgrows.file_iff
    · rw [herror] at hok
      cases hok

/-- Two sinks write one file under different paths, below a new directory.  Between them a destination
below that file is refused, and one that ends in a slash is refused after its directory was made. -/
theorem deliveries_touch_destinations_shared :
    let w : Workshop :=
      { files := { entries := [(["home", "old"], .file "o")], work := ["home"] },
        sinks := [.file, .file] }
    let first : Delivery := ⟨0, ⟨"1", 0⟩, "out/m.go", "x"⟩
    let below : Delivery := ⟨1, ⟨"2", 0⟩, "out/m.go/n", "y"⟩
    let ds := [first, below, ⟨1, ⟨"3", 0⟩, "new/", "z"⟩, ⟨1, ⟨"4", 0⟩, "./out//m.go", "v"⟩]
    let after := (w.deliverAll ds).files
    (∀ d ∈ ds, w.sinks[d.sink]? = some .file) ∧
    (w.delivered ds).map Delivery.dest = ["out/m.go", "./out//m.go"] ∧
    after.get? ["home", "out", "m.go"] = some (.file "v") ∧
    after.get? ["home", "old"] = some (.file "o") ∧
    after.get? ["home", "new"] = some .directory ∧
    ((w.deliverAll [first]).deliver below).after.files.get? ["home", "out", "m.go"]
      = some (.file "x") := by
  intro w first below ds after
  have hfile : ∀ d ∈ ds, w.sinks[d.sink]? = some .file := by decide
  obtain ⟨hentries, hsteps⟩ := deliveries_touch_destinations hfile
  obtain ⟨-, hrefused, -⟩ := hsteps [first] below (ds.drop 2) rfl
  refine ⟨hfile, by decide +kernel, ?_, ?_, by decide +kernel, ?_⟩
  · rw [hentries _ (by decide +kernel)]
    decide +kernel
  · rw [hentries _ (by decide +kernel)]
    decide +kernel
  · exact (hrefused (.file ⟨.making, "out/m.go", .notDirectory⟩) (by decide +kernel) _ (.file "x")
      (by decide)).2 (by decide +kernel)

end Workshop

end Scaffold
