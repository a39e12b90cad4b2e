import Mathlib.Data.List.DropRight
import Scaffold.Store.Sink

/-!
# Reading what was written

A path is walked the same way in every tree that has the same entries on the way.
Writing a file sets the entry at its target, which was no directory, so the way to
it stays, and reading the path finds the new content.

* `FileTree.read_write`: a written path reads as the content it was given.
* `FileTree.read_writeUnit`: so does the destination of a unit, whose directories
  may have been made on the way.
-/

namespace Scaffold

/-! ## Names of paths -/

namespace Path

/-- The last name that is left after trimming is not empty. -/
theorem getLast?_trimNames {names : List String} {last : String}
    (h : (trimNames names).getLast? = some last) : last ≠ "" := by
  rw [trimNames, List.getLast?_reverse] at h
  have hhead := List.head?_dropWhile_not (fun name : String => decide (name = "")) names.reverse
  rw [h] at hhead
  simpa using hhead

theorem trimNames_eq_self {names : List String}
    (h : (trimNames names).length = names.length) : trimNames names = names :=
  (List.rdropWhile_prefix (fun name : String => decide (name = "")) names).eq_of_length h

end Path

namespace FileTree

/-! ## Walks -/

/-- A walk takes the front of its names first. -/
theorem walk_append (t : FileTree) (names rest : List String) (l : Location) :
    t.walk l (names ++ rest) = (t.walk l names).bind fun k => t.walk k rest := by
  induction names generalizing l with
  | nil => rfl
  | cons name names ih =>
    rw [List.cons_append, walk, walk]
    split_ifs
    · exact ih l
    · exact ih l.dropLast
    · rfl
    · exact ih (l ++ [name])
    · rfl
    · rfl

/-- A walk ends at the same place in a tree that keeps the directories and the entries. -/
theorem walk_mono {t t' : FileTree} (hdirectory : ∀ l, t.isDirectory l → t'.isDirectory l)
    (hentry : ∀ l, (t.get? l).isSome → (t'.get? l).isSome) {names : List String} {l k : Location}
    (h : t.walk l names = .ok k) : t'.walk l names = .ok k := by
  induction names generalizing l with
  | nil => exact h
  | cons name names ih =>
    rw [walk] at h ⊢
    split_ifs at h with hl hstay hup hlong hnext
    · rw [if_pos (hdirectory l hl), if_pos hstay]
      exact ih h
    · rw [if_pos (hdirectory l hl), if_neg hstay, if_pos hup]
      exact ih h
    · rw [if_pos (hdirectory l hl), if_neg hstay, if_neg hup, if_neg hlong,
        if_pos (hentry _ hnext)]
      exact ih h

/-! ## Targets -/

/-- The target of a path is a name in a directory, and no directory itself. -/
theorem target_eq_ok {t : FileTree} {path : String} {l : Location} (h : t.target path = .ok l) :
    pathCause? path = none ∧ path ≠ "" ∧ t.isDirectory l = false ∧ ∃ parents last parent,
      Path.names path = parents ++ [last] ∧ Path.isStay last = false ∧ last ≠ ".." ∧
      Path.isLongName last = false ∧ t.walk (t.start path) parents = .ok parent ∧
      t.isDirectory parent = true ∧ l = parent ++ [last] := by
  rw [target] at h
  split at h
  · cases h
  · cases h
  next last hcause hlast =>
  cases hparent : t.walk (t.start path) (Path.trimNames (Path.names path)).dropLast with
  | error cause =>
    rw [hparent] at h
    cases h
  | ok parent =>
    rw [hparent] at h
    change (if !t.isDirectory parent then _ else _) = _ at h
    split_ifs at h with hdirectory hend hlong htaken
    cases h
    simp only [not_or, not_not] at hend
    have htrim := Path.trimNames_eq_self hend.1
    have hempty := Path.getLast?_trimNames hlast
    rw [htrim] at hlast hparent
    have hnames := List.dropLast_append_getLast? last hlast
    refine ⟨hcause, ?_, by simpa using htaken, _, last, parent, hnames.symm, ?_, hend.2.2,
      by simpa using hlong, hparent, by simpa using hdirectory, rfl⟩
    · rintro rfl
      cases hlast
      exact hempty rfl
    · simp [Path.isStay, hempty, hend.2.1]

/-! ## Reading and writing -/

/-- An entry is set where the tree has no directory. -/
theorem get?_set_of_not_directory {t : FileTree} {l : Location} (hl : t.isDirectory l = false)
    (e : Entry) (k : Location) : (t.set l e).get? k = if k = l then some e else t.get? k := by
  have hwork : l.isPrefixOf t.work = false := by
    by_contra hwork
    rw [Bool.not_eq_false] at hwork
    simp [isDirectory, get?, hwork] at hl
  rw [get?_set]
  simp [hwork]

/-- A walk in a tree with one more file is the walk in the tree. -/
theorem walk_set {t : FileTree} {l : Location} (hl : t.isDirectory l = false) (e : Entry)
    {names : List String} {k k' : Location} (h : t.walk k names = .ok k') :
    (t.set l e).walk k names = .ok k' := by
  refine walk_mono (fun m hm => ?_) (fun m hm => ?_) h
  · have hne : m ≠ l := by
      rintro rfl
      rw [hl] at hm
      cases hm
    rwa [isDirectory, get?_set_of_not_directory hl, if_neg hne]
  · rw [get?_set_of_not_directory hl]
    split_ifs
    · rfl
    · exact hm

/-- A path leads to its target once there is a file. -/
theorem locate_target {t : FileTree} {path : String} {l : Location} (h : t.target path = .ok l)
    (content : String) : (t.set l (.file content)).locate path = .ok l := by
  obtain ⟨hcause, hempty, hl, parents, last, parent, hnames, hstay, hup, hlong, hwalk, hparent,
    rfl⟩ := target_eq_ok h
  have hne : parent ≠ parent ++ [last] := by simp
  have hdirectory : (t.set (parent ++ [last]) (.file content)).isDirectory parent = true := by
    rwa [isDirectory, get?_set_of_not_directory hl, if_neg hne]
  have hfound : (t.set (parent ++ [last]) (.file content)).get? (parent ++ [last])
      = some (.file content) := by
    rw [get?_set_of_not_directory hl, if_pos rfl]
  rw [locate, hcause]
  dsimp only
  rw [if_neg hempty, hnames, walk_append, show (t.set _ _).start path = t.start path from rfl,
    walk_set hl _ hwalk]
  simp [Except.bind, walk, hdirectory, hstay, hup, hlong, hfound]

/-- A written path reads as the content it was given. -/
theorem read_write {t t' : FileTree} {path content : String} (h : t.write path content = .ok t') :
    t'.read path = .ok content := by
  rw [write] at h
  cases htarget : t.target path with
  | error cause =>
    rw [htarget] at h
    cases h
  | ok l =>
    rw [htarget] at h
    cases h
    obtain ⟨-, -, hl, -⟩ := target_eq_ok htarget
    rw [read, locate_target htarget]
    simp [get?_set_of_not_directory hl, Entry.content?]

/-- The destination of a unit that was written reads as the unit. -/
theorem read_writeUnit {t t' : FileTree} {dest code : String}
    (h : t.writeUnit dest code = (none, t')) : t'.read dest = .ok code := by
  rw [writeUnit] at h
  split at h
  · cases h
  next made _ =>
  split at h
  · cases h
  next hwrite =>
  cases h
  exact read_write hwrite

end FileTree

end Scaffold
