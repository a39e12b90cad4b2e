import Scaffold.Proofs.Files.Writing

/-!
# Where histories are kept

A history is kept in memory or at a location of the file tree.  Sinks share a
history when they have the same home.

Each operation on database sinks is described by what it does to the histories
at all homes.

* `FileTree.openDatabase_eq`: opening a database keeps the histories in the file
  tree and may add an empty one, at the location its path is resolved to.
* `Workshop.openSink_database`: a sink that is opened has the home that its
  address asks for, and no other history changes.
* `Workshop.historyAt?_setHistory`: replacing a history changes no other one.
* `History.latest?_eq`: when readings of the clock never decrease, the latest unit
  is the one that was stored last.
-/

namespace Scaffold

/-! ## The latest unit -/

namespace History

theorem foldl_later {rows : List Row} (hsorted : rows.Pairwise (·.time ≤ ·.time))
    {best : Option Row} (hbest : ∀ b ∈ best, ∀ r ∈ rows, b.time ≤ r.time) :
    rows.foldl later best = rows.getLast?.or best := by
  induction rows generalizing best with
  | nil => rfl
  | cons r rows ih =>
    obtain ⟨hr, hrows⟩ := List.pairwise_cons.1 hsorted
    have hlater : later best r = some r := by
      cases best with
      | none => rfl
      | some b => exact if_pos (hbest b rfl r List.mem_cons_self)
    rw [List.foldl_cons, hlater, ih hrows]
    · cases hlast : rows.getLast? <;> simp [List.getLast?_cons, hlast]
    · intro b hb
      cases hb
      exact hr

/-- In a history whose clock never went back the latest unit of a name is the last one. -/
theorem latest?_eq {h : History} (hsorted : h.rows.Pairwise (·.time ≤ ·.time)) (dest : String) :
    h.latest? dest = (h.named dest).getLast?.map Row.code := by
  have hnamed : (h.named dest).Pairwise (·.time ≤ ·.time) :=
    hsorted.sublist List.filter_sublist
  rw [latest?, foldl_later hnamed (by simp), Option.or_none]

end History

/-! ## Databases in the file tree -/

/-- The history of an entry that is a database. -/
def Entry.history? : Entry → Option History
  | .database h => some h
  | _ => none

namespace FileTree

/-- The location one name further, whatever the tree holds. -/
def follow (l : Location) (name : String) : Location :=
  if Path.isStay name then l else if name = ".." then l.dropLast else l ++ [name]

/-- The location that a path names when nothing stands in the way. -/
def resolved (t : FileTree) (path : String) : Location :=
  (Path.names path).foldl follow (t.start path)

/-- The history of the database at a location. -/
def historyIn? (t : FileTree) (l : Location) : Option History := (t.get? l).bind Entry.history?

theorem towards?_eq_some {t : FileTree} {l next : Location} {name : String}
    (h : t.towards? l name = some next) : next = follow l name := by
  rw [towards?] at h
  rw [follow]
  split_ifs at h ⊢
  · exact (Option.some.inj h).symm
  · exact (Option.some.inj h).symm
  · dsimp only at h
    split_ifs at h
    split at h
    · exact (Option.some.inj h).symm
    · exact (Option.some.inj h).symm
    · cases h

theorem foldlM_towards? {t : FileTree} {names : List String} {l next : Location}
    (h : names.foldlM t.towards? l = some next) : next = names.foldl follow l := by
  induction names generalizing l with
  | nil => exact (Option.some.inj h).symm
  | cons name names ih =>
    rw [List.foldlM_cons] at h
    obtain ⟨k, hk, hnext⟩ := Option.bind_eq_some_iff.1 h
    rw [List.foldl_cons, ← towards?_eq_some hk]
    exact ih hnext

/-- A database is at the location its path is resolved to. -/
theorem eq_resolved {t : FileTree} {path : String} {l : Location}
    (h : t.databaseLocation? path = some l) : l = t.resolved path := by
  obtain ⟨k, hk, hl⟩ := Option.bind_eq_some_iff.1 h
  split_ifs at hl
  cases hl
  exact foldlM_towards? hk

/-- Setting an entry that is no directory changes the history at its location only. -/
theorem historyIn?_set {t : FileTree} {l : Location} (hl : t.isDirectory l = false) (e : Entry)
    (k : Location) :
    (t.set l e).historyIn? k = if k = l then e.history? else t.historyIn? k := by
  rw [historyIn?, get?_set_of_not_directory hl]
  split_ifs <;> rfl

/-- A new database starts with an empty history. -/
theorem historyIn?_create {t : FileTree} {l : Location} (hl : t.isDirectory l = false)
    (hnone : t.historyIn? l = none) (k : Location) :
    (t.set l (.database {})).historyIn? k =
      if k = l then some ((t.historyIn? k).getD {}) else t.historyIn? k := by
  rw [historyIn?_set hl]
  split_ifs with hk
  · rw [hk, hnone]
    rfl
  · rfl

/-- Opening a database refuses it and keeps the histories, or finds it where its path is resolved
to, with an empty history when it is new. -/
theorem openDatabase_eq (t : FileTree) (a : Address) :
    (t.openDatabase a).2.work = t.work ∧
    (((t.openDatabase a).1 = none ∧
        ∀ k, (t.openDatabase a).2.historyIn? k = t.historyIn? k) ∨
      ((t.openDatabase a).1 = some (t.resolved a.path) ∧
        ∀ k, (t.openDatabase a).2.historyIn? k = if k = t.resolved a.path
          then some ((t.historyIn? k).getD {}) else t.historyIn? k)) := by
  rw [openDatabase]
  cases hlocation : t.databaseLocation? a.path with
  | none => exact ⟨rfl, .inl ⟨rfl, fun _ => rfl⟩⟩
  | some l =>
    rw [← eq_resolved hlocation]
    dsimp only
    split
    next hget =>
      have hl : t.isDirectory l = false := by simp [isDirectory, hget]
      have hnone : t.historyIn? l = none := by simp [historyIn?, hget]
      split_ifs
      · exact ⟨rfl, .inl ⟨rfl, fun _ => rfl⟩⟩
      · exact ⟨rfl, .inr ⟨rfl, historyIn?_create hl hnone⟩⟩
      · refine ⟨rfl, .inl ⟨rfl, fun k => ?_⟩⟩
        rw [historyIn?_set hl]
        split_ifs with hk
        · rw [hk, hnone]
          rfl
        · rfl
    next hget =>
      have hl : t.isDirectory l = false := by simp [isDirectory, hget]
      have hnone : t.historyIn? l = none := by simp [historyIn?, hget, Entry.history?]
      split_ifs
      · exact ⟨rfl, .inr ⟨rfl, historyIn?_create hl hnone⟩⟩
      · exact ⟨rfl, .inl ⟨rfl, fun _ => rfl⟩⟩
    next h hget =>
      have hsome : t.historyIn? l = some h := by simp [historyIn?, hget, Entry.history?]
      split_ifs
      · refine ⟨rfl, .inr ⟨rfl, fun k => ?_⟩⟩
        split_ifs with hk
        · rw [hk, hsome]
          rfl
        · rfl
      · exact ⟨rfl, .inl ⟨rfl, fun _ => rfl⟩⟩
    next => exact ⟨rfl, .inl ⟨rfl, fun _ => rfl⟩⟩

end FileTree

/-! ## Homes -/

/-- Where a history is kept. -/
inductive Home where
  | memory (index : Nat)
  | file (location : Location)
  deriving DecidableEq, Repr

/-- Where a database keeps its history. -/
def Database.home : Database → Home
  | .memory index _ => .memory index
  | .file l => .file l

/-- The database of a sink. -/
def Sink.place? : Sink → Option Database
  | .file => none
  | .database place _ _ => some place

namespace Workshop

/-- The database of a sink. -/
def place? (w : Workshop) (sink : Nat) : Option Database := w.sinks[sink]?.bind Sink.place?

/-- Where the history of a sink is kept. -/
def home? (w : Workshop) (sink : Nat) : Option Home := (w.place? sink).map Database.home

/-- The history at a home. -/
def historyAt? (w : Workshop) : Home → Option History
  | .memory index => w.memory[index]?
  | .file l => w.files.historyIn? l

theorem place?_congr {w w' : Workshop} (h : w'.sinks = w.sinks) : w'.place? = w.place? := by
  funext sink
  rw [place?, h, place?]

theorem home?_congr {w w' : Workshop} (h : w'.place? = w.place?) : w'.home? = w.home? := by
  funext sink
  rw [home?, h, home?]

theorem history?_eq (w : Workshop) (place : Database) :
    w.history? place = w.historyAt? place.home := by
  cases place with
  | memory => rfl
  | file l =>
    rw [history?]
    change _ = w.files.historyIn? l
    rw [FileTree.historyIn?]
    split
    next hget => rw [hget]; rfl
    next hget =>
      cases hentry : w.files.get? l with
      | none => rfl
      | some e =>
        cases e with
        | database h => exact absurd hentry (hget h)
        | file | directory => rfl

theorem sinks_setHistory (w : Workshop) (h : History) (place : Database) :
    (w.setHistory h place).sinks = w.sinks := by
  cases place <;> rfl

theorem work_setHistory (w : Workshop) (h : History) (place : Database) :
    (w.setHistory h place).files.work = w.files.work := by
  cases place <;> rfl

/-- Replacing a history leaves all others as they are. -/
theorem historyAt?_setHistory {w : Workshop} {place : Database} {old : History}
    (hold : w.historyAt? place.home = some old) (h : History) (home : Home) :
    (w.setHistory h place).historyAt? home =
      if home = place.home then some h else w.historyAt? home := by
  cases place with
  | memory index name =>
    obtain ⟨hindex, -⟩ := List.getElem?_eq_some_iff.1 hold
    cases home with
    | memory k =>
      by_cases hk : k = index
      · subst hk
        simp [setHistory, historyAt?, Database.home, hindex]
      · simp [setHistory, historyAt?, Database.home, hk, List.getElem?_set_ne (Ne.symm hk)]
    | file l => rfl
  | file l =>
    have hl : w.files.isDirectory l = false := by
      obtain ⟨e, he, hhistory⟩ := Option.bind_eq_some_iff.1 hold
      cases e with
      | database => simp [FileTree.isDirectory, he]
      | file | directory => cases hhistory
    cases home with
    | memory k => rfl
    | file k =>
      change (w.files.set l (.database h)).historyIn? k = _
      rw [FileTree.historyIn?_set hl]
      simp [Database.home, Entry.history?, historyAt?]

/-! ## Opening a sink -/

/-- The address of the database that a sink is opened with. -/
def addressOf? (name : String) : Option Address :=
  Address.ofName? (if name = "" then ":memory:" else name)

/-- The databases that a sink on an address may have. -/
inductive Offers (w : Workshop) (a : Address) : Database → Prop where
  /-- The one that the path is resolved to. -/
  | file : a.inMemory = false → w.Offers a (.file (w.files.resolved a.path))
  /-- A new one in memory. -/
  | fresh : a.inMemory = true → w.Offers a (.memory w.memory.length a.sharedName?)
  /-- The one of an open sink with the same name. -/
  | shared {name : String} {index sink : Nat} : a.inMemory = true → a.sharedName? = some name →
      w.place? sink = some (.memory index (some name)) → w.Offers a (.memory index (some name))

/-- What opening a sink on a database does when it succeeds. -/
structure Opened (w : Workshop) (a : Address) (place : Database) (after : Workshop) : Prop where
  offers : w.Offers a place
  sinks : after.sinks = w.sinks ++ [.database place a.writable true]
  work : after.files.work = w.files.work
  histories : ∀ home, after.historyAt? home =
    if home = place.home then some ((w.historyAt? home).getD {}) else w.historyAt? home

theorem exists_of_sharedIndex? {w : Workshop} {name : String} {index : Nat}
    (h : w.sharedIndex? name = some index) :
    ∃ sink, w.place? sink = some (.memory index (some name)) := by
  obtain ⟨sink, hsink, hshared⟩ := List.exists_of_findSome?_eq_some h
  obtain ⟨i, hi, rfl⟩ := List.mem_iff_getElem.1 hsink
  refine ⟨i, ?_⟩
  split at hshared
  next heq =>
    split_ifs at hshared with hname
    cases hshared
    simp [place?, hi, heq, Sink.place?, hname]
  next => cases hshared

theorem historyAt?_add (w : Workshop) (sink : Sink) (home : Home) :
    (w.add sink).after.historyAt? home = w.historyAt? home := by
  cases home <;> rfl

/-- One more history in memory is an empty one at a home that had none. -/
theorem historyAt?_append (w : Workshop) (home : Home) :
    ({ w with memory := w.memory ++ [{}] } : Workshop).historyAt? home =
      if home = .memory w.memory.length then some ((w.historyAt? home).getD {})
      else w.historyAt? home := by
  cases home with
  | file l => rfl
  | memory k =>
    obtain hk | rfl | hk := lt_trichotomy k w.memory.length
    · simp [historyAt?, List.getElem?_append_left hk, hk.ne]
    · simp [historyAt?]
    · rw [if_neg (by simpa using hk.ne')]
      change (w.memory ++ [_])[k]? = w.memory[k]?
      rw [List.getElem?_eq_none hk.le, List.getElem?_eq_none (by simp; omega)]

/-- A sink in memory has the history of an open sink with its name, or a new one. -/
theorem openMemory_eq {w : Workshop}
    (hhomes : ∀ sink home, w.home? sink = some home → (w.historyAt? home).isSome) {a : Address}
    (ha : a.inMemory = true) :
    ((w.openMemory a).outcome = .error .unopened ∧ (w.openMemory a).after = w) ∨
    ((w.openMemory a).outcome = .ok w.sinks.length ∧
      ∃ place, w.Opened a place (w.openMemory a).after) := by
  rw [openMemory]
  split
  next index hindex =>
    obtain ⟨name, hname, hshared⟩ := Option.bind_eq_some_iff.1 hindex
    obtain ⟨sink, hsink⟩ := exists_of_sharedIndex? hshared
    have hsome := hhomes sink (.memory index) (by simp [home?, hsink, Database.home])
    obtain ⟨h, hh⟩ := Option.isSome_iff_exists.1 hsome
    split_ifs
    · rw [hname]
      refine .inr ⟨rfl, _, .shared ha hname hsink, rfl, rfl, fun home => ?_⟩
      rw [historyAt?_add]
      split_ifs with hhome
      · rw [hhome, Database.home, hh]
        rfl
      · rfl
    · exact .inl ⟨rfl, rfl⟩
  next hnone =>
    split_ifs with hsound
    · refine .inr ⟨rfl, _, .fresh ha, ?_, rfl, fun home => ?_⟩
      · have hwritable : a.writable = true := by simp_all
        rw [hwritable]
        rfl
      · rw [historyAt?_add]
        exact historyAt?_append w home
    · exact .inl ⟨rfl, rfl⟩

/-- Opening a sink on a database fails and keeps the sinks and the histories, or gives one more
sink, on a database that its address offers. -/
theorem openSink_database {w : Workshop}
    (hhomes : ∀ sink home, w.home? sink = some home → (w.historyAt? home).isSome) (name : String) :
    ((∃ fault, (w.openSink "sqlite" name).outcome = .error fault) ∧
      (w.openSink "sqlite" name).after.sinks = w.sinks ∧
      (w.openSink "sqlite" name).after.files.work = w.files.work ∧
      ∀ home, (w.openSink "sqlite" name).after.historyAt? home = w.historyAt? home) ∨
    ((w.openSink "sqlite" name).outcome = .ok w.sinks.length ∧
      ∃ a place, addressOf? name = some a ∧
        w.Opened a place (w.openSink "sqlite" name).after) := by
  rw [openSink, if_neg (by decide), if_pos rfl]
  change (_ ∧ _) ∨ _ ∧ ∃ a place, Address.ofName? _ = some a ∧ _
  split
  next => exact .inl ⟨⟨_, rfl⟩, rfl, rfl, fun _ => rfl⟩
  next a ha =>
    rw [openAddress]
    cases hmemory : a.inMemory with
    | true =>
      obtain ⟨houtcome, hafter⟩ | ⟨houtcome, place, hopened⟩ := openMemory_eq hhomes hmemory
      · rw [if_pos rfl, houtcome, hafter]
        exact .inl ⟨⟨_, rfl⟩, rfl, rfl, fun _ => rfl⟩
      · rw [if_pos rfl]
        exact .inr ⟨houtcome, a, place, ha, hopened⟩
    | false =>
      rw [if_neg Bool.false_ne_true]
      rcases hopen : w.files.openDatabase a with ⟨found, files⟩
      have hdatabase := w.files.openDatabase_eq a
      rw [hopen] at hdatabase
      obtain ⟨hwork, ⟨rfl, hhistories⟩ | ⟨rfl, hhistories⟩⟩ := hdatabase
      · refine .inl ⟨⟨_, rfl⟩, rfl, hwork, fun home => ?_⟩
        cases home with
        | memory => rfl
        | file l => exact hhistories l
      · refine .inr ⟨rfl, a, _, ha, .file hmemory, rfl, hwork, fun home => ?_⟩
        rw [historyAt?_add]
        cases home with
        | memory => rfl
        | file l =>
          refine (hhistories l).trans ?_
          simp [Database.home, historyAt?]

/-! ## Writing and closing -/

/-- Writing to a database sink fails and changes nothing, or adds the unit to the history at the
home of the sink. -/
theorem write_database {w : Workshop} {sink : Nat} (hsink : w.sinks[sink]? ≠ some .file)
    (stamp : Stamp) (dest code : String) :
    ((∃ fault, (w.write sink stamp dest code).outcome = .error fault) ∧
      (w.write sink stamp dest code).after = w) ∨
    ((w.write sink stamp dest code).outcome = .ok () ∧ ∃ place h,
      w.place? sink = some place ∧ w.historyAt? place.home = some h ∧
      (w.write sink stamp dest code).after
        = w.setHistory (h.record stamp.time dest code) place) := by
  rw [write]
  split
  next => exact .inl ⟨⟨_, rfl⟩, rfl⟩
  next h => exact absurd h hsink
  next => exact .inl ⟨⟨_, rfl⟩, rfl⟩
  next place writable h =>
    split
    next history hhistory =>
      rw [history?_eq] at hhistory
      exact .inr ⟨rfl, place, history, by simp [place?, h, Sink.place?], hhistory, rfl⟩
    next => exact .inl ⟨⟨_, rfl⟩, rfl⟩

/-- The answers about a name depend on the units of that name only. -/
theorem answers_congr {w w' : Workshop} {name : String} (hsinks : w'.sinks = w.sinks)
    (hnamed : ∀ home, (w'.historyAt? home).map (History.named · name)
      = (w.historyAt? home).map (History.named · name)) (sink : Nat) :
    w'.count sink name = w.count sink name ∧ w'.latest sink name = w.latest sink name := by
  rw [count, count, latest, latest, hsinks]
  split
  next => exact ⟨rfl, rfl⟩
  next place writable _ =>
    rw [history?_eq, history?_eq]
    have hplace := hnamed place.home
    cases hnew : w'.historyAt? place.home <;> cases hold : w.historyAt? place.home <;>
      rw [hnew, hold] at hplace
    case none.none => exact ⟨rfl, rfl⟩
    case none.some => cases hplace
    case some.none => cases hplace
    case some.some new old =>
      have heq : new.named name = old.named name := Option.some.inj hplace
      simp only [History.count, History.latest?, heq, and_self]
  next => exact ⟨rfl, rfl⟩

/-- Writing under a name leaves the answers about other names as they are. -/
theorem answers_write {w : Workshop} {sink : Nat} (hsink : w.sinks[sink]? ≠ some .file)
    (stamp : Stamp) {dest name : String} (hname : name ≠ dest) (code : String) (other : Nat) :
    (w.write sink stamp dest code).after.count other name = w.count other name ∧
    (w.write sink stamp dest code).after.latest other name = w.latest other name := by
  obtain ⟨-, hafter⟩ | ⟨-, place, old, -, hold, hafter⟩ := write_database hsink stamp dest code
  · rw [hafter]
    exact ⟨rfl, rfl⟩
  · rw [hafter]
    refine answers_congr (sinks_setHistory w _ place) (fun home => ?_) other
    rw [historyAt?_setHistory hold]
    split_ifs with hhome
    · rw [hhome, hold]
      simp [History.named_record, hname.symm]
    · rfl

/-- One more sink brings its database, and the others keep theirs. -/
theorem place?_append {w w' : Workshop} {s : Sink} (h : w'.sinks = w.sinks ++ [s]) (sink : Nat) :
    w'.place? sink = if sink = w.sinks.length then s.place? else w.place? sink := by
  rw [place?, h, place?]
  obtain hlt | rfl | hgt := lt_trichotomy sink w.sinks.length
  · rw [if_neg hlt.ne, List.getElem?_append_left hlt]
  · simp
  · rw [if_neg hgt.ne', List.getElem?_eq_none hgt.le, List.getElem?_eq_none (by simp; omega)]

theorem home?_append {w w' : Workshop} {place : Database} {writable isOpen : Bool}
    (h : w'.sinks = w.sinks ++ [.database place writable isOpen]) (sink : Nat) :
    w'.home? sink = if sink = w.sinks.length then some place.home else w.home? sink := by
  rw [home?, place?_append h]
  split_ifs <;> rfl

/-- A sink that is replaced by one on the same database changes no database. -/
theorem place?_set {w : Workshop} {sink : Nat} {old new : Sink} (hold : w.sinks[sink]? = some old)
    (hplace : new.place? = old.place?) :
    ({ w with sinks := w.sinks.set sink new } : Workshop).place? = w.place? := by
  funext other
  rw [place?, place?]
  by_cases h : sink = other
  · subst h
    obtain ⟨hlt, -⟩ := List.getElem?_eq_some_iff.1 hold
    rw [List.getElem?_set_self hlt, hold]
    exact hplace
  · rw [List.getElem?_set_ne h]

end Workshop

end Scaffold
