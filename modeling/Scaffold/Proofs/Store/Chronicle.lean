import Scaffold.Proofs.Store.Homes

/-!
# Complete histories

A chronicle follows a workshop of database sinks through a run of actions.  It
notes with which name each sink was opened, which sinks were closed and which
units were stored.

* `Chronicle.sound_step` and `Chronicle.sound_run`: the history at every home holds
  the units that were stored in it, in order, after every step and every run.
* `Chronicle.run_keeps_history`: so an open sink counts the units that were stored
  in its database and finds the last of them.  Sinks on the same file share their
  history, a sink in memory has one of its own, units of other names do not
  matter, and a closed sink refuses everything but being closed.
-/

namespace Scaffold

/-! ## Actions -/

/-- What is done with the sinks of a workshop. -/
inductive Action where
  | openDatabase (name : String)
  | write (sink : Nat) (stamp : Stamp) (dest code : String)
  | latest (sink : Nat) (dest : String)
  | count (sink : Nat) (dest : String)
  | close (sink : Nat)
  deriving DecidableEq, Repr

/-- The clock reading of an action that writes. -/
def Action.reading? : Action → Option Int
  | .write _ stamp _ _ => some stamp.time
  | _ => none

/-- A unit that was stored. -/
structure Deposit where
  /-- The sink that stored it. -/
  sink : Nat
  /-- The name it was stored under. -/
  dest : String
  /-- Its text. -/
  code : String
  /-- The clock reading. -/
  time : Int
  deriving DecidableEq, Repr

/-- The row that a history keeps of a stored unit. -/
def Deposit.row (d : Deposit) : Row := ⟨d.dest, d.code, d.code.utf8ByteSize, d.time⟩

/-- A workshop, and what was done to get there. -/
structure Chronicle where
  /-- The workshop. -/
  workshop : Workshop
  /-- The names that the sinks were opened with. -/
  names : List String := []
  /-- The sinks that were closed. -/
  closed : List Nat := []
  /-- The units that were stored, the first one first. -/
  deposits : List Deposit := []
  deriving DecidableEq, Repr

namespace Chronicle

/-- A chronicle after one more action.  Queries leave no trace. -/
def step (c : Chronicle) : Action → Chronicle
  | .openDatabase name =>
    let opened := c.workshop.openSink "sqlite" name
    match opened.outcome with
    | .ok _ => { c with workshop := opened.after, names := c.names ++ [name] }
    | .error _ => { c with workshop := opened.after }
  | .write sink stamp dest code =>
    let written := c.workshop.write sink stamp dest code
    match written.outcome with
    | .ok _ =>
      { c with
        workshop := written.after
        deposits := c.deposits ++ [⟨sink, dest, code, stamp.time⟩] }
    | .error _ => { c with workshop := written.after }
  | .latest _ _ => c
  | .count _ _ => c
  | .close sink =>
    let closing := c.workshop.close sink
    match closing.outcome with
    | .ok _ => { c with workshop := closing.after, closed := c.closed ++ [sink] }
    | .error _ => { c with workshop := closing.after }

/-- The chronicle of a run that starts with a file tree and no sinks. -/
def run (files : FileTree) (actions : List Action) : Chronicle :=
  actions.foldl step { workshop := { files } }

/-- Whether a sink was opened and not closed since. -/
def IsOpen (c : Chronicle) (sink : Nat) : Prop := sink < c.names.length ∧ sink ∉ c.closed

/-- Whether two sinks are on the same database. -/
def Shares (c : Chronicle) (sink other : Nat) : Prop :=
  c.workshop.home? sink = c.workshop.home? other

instance (c : Chronicle) (sink : Nat) : Decidable (c.IsOpen sink) := by
  unfold IsOpen
  infer_instance

instance (c : Chronicle) (sink other : Nat) : Decidable (c.Shares sink other) :=
  inferInstanceAs (Decidable (_ = _))

/-- The location of the file that a sink was opened on, if it was opened on a file. -/
def file? (files : FileTree) (c : Chronicle) (sink : Nat) : Option Location := do
  let name ← c.names[sink]?
  let a ← Workshop.addressOf? name
  if a.inMemory then none else some (files.resolved a.path)

/-- The texts that were stored under a name in the database of a sink, the first one first. -/
def kept (c : Chronicle) (sink : Nat) (dest : String) : List String :=
  (c.deposits.filter fun d => d.dest = dest ∧ c.Shares d.sink sink).map Deposit.code

/-! ## Soundness -/

/-- The databases that an address may be opened as. -/
def Suits (files : FileTree) (a : Address) : Database → Prop
  | .file l => a.inMemory = false ∧ l = files.resolved a.path
  | .memory _ name => a.inMemory = true ∧ name = a.sharedName?

/-- The chronicle tells what the workshop holds. -/
structure Sound (files : FileTree) (c : Chronicle) : Prop where
  /-- The working directory is the one of the start. -/
  work : c.workshop.files.work = files.work
  /-- Every sink was opened. -/
  length : c.names.length = c.workshop.sinks.length
  /-- A sink is on a database that suits its name, and is open unless it was closed. -/
  opened : ∀ i name, c.names[i]? = some name → ∃ a place, Workshop.addressOf? name = some a ∧
    Suits files a place ∧
    c.workshop.sinks[i]? = some (Sink.database place a.writable (decide (i ∉ c.closed)))
  /-- Every sink has a history. -/
  homes : ∀ i home, c.workshop.home? i = some home → (c.workshop.historyAt? home).isSome
  /-- A history holds the units that were stored in it. -/
  rows : ∀ home h, c.workshop.historyAt? home = some h →
    h.rows = (c.deposits.filter fun d => c.workshop.home? d.sink = some home).map Deposit.row
  /-- A history in memory without a name has one sink. -/
  single : ∀ i j index name, c.workshop.place? i = some (.memory index none) →
    c.workshop.place? j = some (.memory index name) → j = i
  /-- Units were stored by sinks. -/
  deposited : ∀ d ∈ c.deposits, d.sink < c.names.length
  /-- Sinks were closed. -/
  closed : ∀ i ∈ c.closed, i < c.names.length

namespace Sound

variable {files : FileTree} {c : Chronicle}

/-- Every sink is on a database. -/
theorem database (h : Sound files c) {i : Nat} (hi : i < c.names.length) :
    ∃ place writable, c.workshop.sinks[i]?
      = some (Sink.database place writable (decide (i ∉ c.closed))) := by
  obtain ⟨a, place, -, -, hsink⟩ := h.opened i _ (List.getElem?_eq_getElem hi)
  exact ⟨place, a.writable, hsink⟩

theorem ne_file (h : Sound files c) (i : Nat) : c.workshop.sinks[i]? ≠ some .file := by
  intro hfile
  obtain ⟨hi, -⟩ := List.getElem?_eq_some_iff.1 hfile
  obtain ⟨place, writable, hsink⟩ := h.database (h.length ▸ hi)
  rw [hfile] at hsink
  cases hsink

/-- A workshop with the same sinks and histories will do. -/
theorem congr (h : Sound files c) {w : Workshop} (hwork : w.files.work = c.workshop.files.work)
    (hsinks : w.sinks = c.workshop.sinks)
    (hhistories : ∀ home, w.historyAt? home = c.workshop.historyAt? home) :
    Sound files { c with workshop := w } := by
  have hplace := Workshop.place?_congr hsinks
  have hhome := Workshop.home?_congr hplace
  constructor
  case work => exact hwork.trans h.work
  case length => rw [hsinks]; exact h.length
  case opened => rw [hsinks]; exact h.opened
  case homes => simp only [hhome, hhistories]; exact h.homes
  case rows => simp only [hhome, hhistories]; exact h.rows
  case single => simp only [hplace]; exact h.single
  case deposited => exact h.deposited
  case closed => exact h.closed

/-- No sink is at a home without a history. -/
theorem home?_ne (h : Sound files c) {home : Home} (hnone : c.workshop.historyAt? home = none)
    (i : Nat) : c.workshop.home? i ≠ some home := by
  intro hi
  have hsome := h.homes i home hi
  rw [hnone] at hsome
  cases hsome

theorem suits_of_offers (h : Sound files c) {a : Address} {place : Database}
    (hoffers : c.workshop.Offers a place) : Suits files a place := by
  cases hoffers with
  | file ha =>
    refine ⟨ha, ?_⟩
    rw [FileTree.resolved, FileTree.resolved, FileTree.start, FileTree.start, h.work]
  | fresh ha => exact ⟨ha, rfl⟩
  | shared ha hname _ => exact ⟨ha, hname.symm⟩

/-- A new sink shares no history in memory that has no name. -/
theorem single_opened (h : Sound files c) {a : Address} {place : Database}
    (hoffers : c.workshop.Offers a place) {index : Nat} {name : Option String}
    (hplace : place = .memory index name) {i : Nat} {other : Option String}
    (hi : c.workshop.place? i = some (.memory index other)) : name ≠ none ∧ other ≠ none := by
  cases hoffers with
  | file => cases hplace
  | fresh =>
    -- The history is new, so no sink is on it.
    cases hplace
    have hnone : c.workshop.historyAt? (.memory c.workshop.memory.length) = none :=
      List.getElem?_eq_none le_rfl
    exact absurd (by rw [Workshop.home?, hi]; rfl) (h.home?_ne hnone i)
  | @shared name index sink _ _ hsink =>
    -- The history has a sink with a name already, so it is no history without a name.
    cases hplace
    refine ⟨Option.some_ne_none name, ?_⟩
    rintro rfl
    obtain rfl := h.single i sink _ _ hi hsink
    rw [hi] at hsink
    cases hsink

/-- After a sink is opened the histories hold what was stored in them.  A new one is empty, since no
sink was on it before. -/
theorem rows_opened (h : Sound files c) {a : Address} {place : Database} {after : Workshop}
    (hopened : c.workshop.Opened a place after) {home : Home} {history : History}
    (hhistory : after.historyAt? home = some history) :
    history.rows = (c.deposits.filter fun d => after.home? d.sink = some home).map Deposit.row := by
  have hfilter : c.deposits.filter (fun d => after.home? d.sink = some home)
      = c.deposits.filter fun d => c.workshop.home? d.sink = some home := by
    refine List.filter_congr fun d hd => ?_
    have hlt := h.deposited d hd
    rw [Workshop.home?_append hopened.sinks, if_neg (by rw [← h.length]; exact hlt.ne)]
  rw [hfilter]
  rw [hopened.histories] at hhistory
  cases hold : c.workshop.historyAt? home with
  | some old =>
    have heq : history = old := by
      rw [hold] at hhistory
      split_ifs at hhistory <;> exact (Option.some.inj hhistory).symm
    rw [heq]
    exact h.rows home old hold
  | none =>
    have heq : history = {} := by
      rw [hold] at hhistory
      split_ifs at hhistory
      exact (Option.some.inj hhistory).symm
    have hnil : c.deposits.filter (fun d => c.workshop.home? d.sink = some home) = [] := by
      simp [h.home?_ne hold]
    rw [hnil, heq]
    rfl

/-- Opening a sink keeps a chronicle sound. -/
theorem opened_step (h : Sound files c) (name : String) :
    Sound files (c.step (.openDatabase name)) := by
  obtain ⟨⟨fault, houtcome⟩, hsinks, hwork, hhistories⟩ | ⟨houtcome, a, place, ha, hopened⟩ :=
    Workshop.openSink_database h.homes name
  · simp only [step, houtcome]
    exact h.congr hwork hsinks hhistories
  simp only [step, houtcome]
  have hplace := Workshop.place?_append hopened.sinks
  constructor
  case work => exact hopened.work.trans h.work
  case length => simp [hopened.sinks, h.length]
  case opened =>
    intro i other hother
    obtain hi | ⟨rfl, rfl⟩ : c.names[i]? = some other ∨ i = c.names.length ∧ other = name := by
      grind
    · obtain ⟨b, old, hb, hsuits, hsink⟩ := h.opened i other hi
      obtain ⟨hlt, -⟩ := List.getElem?_eq_some_iff.1 hsink
      refine ⟨b, old, hb, hsuits, ?_⟩
      rw [hopened.sinks, List.getElem?_append_left hlt]
      exact hsink
    · refine ⟨a, place, ha, h.suits_of_offers hopened.offers, ?_⟩
      have hnot : c.names.length ∉ c.closed := fun hmem => (h.closed _ hmem).false
      rw [hopened.sinks, h.length]
      simp [← h.length, hnot]
  case homes =>
    intro i home hi
    rw [hopened.histories]
    split_ifs with hnew
    · rfl
    · rw [Workshop.home?_append hopened.sinks] at hi
      split_ifs at hi
      · exact absurd (Option.some.inj hi).symm hnew
      · exact h.homes i home hi
  case rows => exact fun home history => h.rows_opened hopened
  case single =>
    intro i j index other hi hj
    rw [hplace] at hi hj
    split_ifs at hi hj with hinew hjnew hjnew
    · exact hjnew.trans hinew.symm
    · exact absurd rfl (h.single_opened hopened.offers (Option.some.inj hi) hj).1
    · exact absurd rfl (h.single_opened hopened.offers (Option.some.inj hj) hi).2
    · exact h.single i j index other hi hj
  case deposited =>
    intro d hd
    rw [List.length_append]
    exact Nat.lt_add_right _ (h.deposited d hd)
  case closed =>
    intro i hi
    rw [List.length_append]
    exact Nat.lt_add_right _ (h.closed i hi)

/-- Writing a unit keeps a chronicle sound. -/
theorem written_step (h : Sound files c) (sink : Nat) (stamp : Stamp) (dest code : String) :
    Sound files (c.step (.write sink stamp dest code)) := by
  obtain ⟨⟨fault, houtcome⟩, hafter⟩ | ⟨houtcome, place, old, hplace, hold, hafter⟩ :=
    Workshop.write_database (h.ne_file sink) stamp dest code
  · simp only [step, houtcome, hafter]
    exact h
  simp only [step, houtcome, hafter]
  have hsinks := c.workshop.sinks_setHistory (old.record stamp.time dest code) place
  have hplaces := Workshop.place?_congr hsinks
  have hhome := Workshop.home?_congr hplaces
  have hsink : c.workshop.home? sink = some place.home := by
    rw [Workshop.home?, hplace]
    rfl
  constructor
  case work => rw [Workshop.work_setHistory]; exact h.work
  case length => rw [hsinks]; exact h.length
  case opened => rw [hsinks]; exact h.opened
  case homes =>
    intro i home hi
    rw [hhome] at hi
    rw [Workshop.historyAt?_setHistory hold]
    split_ifs
    · rfl
    · exact h.homes i home hi
  case rows =>
    intro home history hhistory
    rw [Workshop.historyAt?_setHistory hold] at hhistory
    rw [hhome, List.filter_append, List.map_append]
    split_ifs at hhistory with heq
    · cases hhistory
      rw [heq, ← h.rows place.home old hold]
      simp [History.record, hsink, Deposit.row]
    · have hne : place.home ≠ home := Ne.symm heq
      simpa [hsink, hne] using h.rows home history hhistory
  case single => rw [hplaces]; exact h.single
  case deposited =>
    intro d hd
    obtain hd | hd := List.mem_append.1 hd
    · exact h.deposited d hd
    · cases List.mem_singleton.1 hd
      obtain ⟨s, hs, -⟩ := Option.bind_eq_some_iff.1 hplace
      rw [h.length]
      exact (List.getElem?_eq_some_iff.1 hs).1
  case closed => exact h.closed

/-- Closing a sink keeps a chronicle sound. -/
theorem closed_step (h : Sound files c) (sink : Nat) : Sound files (c.step (.close sink)) := by
  cases hsink : c.workshop.sinks[sink]? with
  | none =>
    simp only [step, Workshop.close, hsink]
    exact h
  | some s =>
    cases s with
    | file => exact absurd hsink (h.ne_file sink)
    | database place writable isOpen =>
      simp only [step, Workshop.close, hsink]
      obtain ⟨hlt, -⟩ := List.getElem?_eq_some_iff.1 hsink
      have hsame : (Sink.database place writable false).place?
          = (Sink.database place writable isOpen).place? := rfl
      have hplaces := Workshop.place?_set hsink hsame
      have hhome := Workshop.home?_congr hplaces
      constructor
      case work => exact h.work
      case length => rw [List.length_set]; exact h.length
      case opened =>
        intro i name hname
        obtain ⟨a, old, ha, hsuits, hold⟩ := h.opened i name hname
        refine ⟨a, old, ha, hsuits, ?_⟩
        by_cases hi : sink = i
        · subst hi
          rw [hsink] at hold
          cases hold
          simp [hlt]
        · rw [List.getElem?_set_ne hi, hold]
          simp [Ne.symm hi]
      case homes => rw [hhome]; exact h.homes
      case rows => rw [hhome]; exact h.rows
      case single => rw [hplaces]; exact h.single
      case deposited => exact h.deposited
      case closed =>
        intro i hi
        obtain hi | hi := List.mem_append.1 hi
        · exact h.closed i hi
        · rw [List.mem_singleton.1 hi, h.length]
          exact hlt

end Sound

/-- Every action keeps a chronicle sound. -/
theorem sound_step {files : FileTree} {c : Chronicle} (h : Sound files c) (action : Action) :
    Sound files (c.step action) := by
  cases action with
  | openDatabase name => exact h.opened_step name
  | write sink stamp dest code => exact h.written_step sink stamp dest code
  | latest => exact h
  | count => exact h
  | close sink => exact h.closed_step sink

/-- A chronicle without sinks is sound when no unit is stored. -/
theorem sound_start {files : FileTree}
    (hempty : ∀ l h, files.get? l = some (.database h) → h = {}) :
    Sound files { workshop := { files } } := by
  constructor
  case work => rfl
  case length => rfl
  case opened => intro i name hname; cases hname
  case homes => intro i home hhome; cases hhome
  case rows =>
    intro home h hh
    cases home with
    | memory index => cases hh
    | file l =>
      obtain ⟨e, he, hhistory⟩ := Option.bind_eq_some_iff.1 hh
      cases e with
      | database h =>
        cases hhistory
        rw [hempty l h he]
        rfl
      | file | directory => cases hhistory
  case single => intro i j index name hi; cases hi
  case deposited => intro d hd; cases hd
  case closed => intro i hi; cases hi

/-- The chronicle of every run is sound when no unit is stored at its start. -/
theorem sound_run {files : FileTree} (hempty : ∀ l h, files.get? l = some (.database h) → h = {})
    (actions : List Action) : Sound files (run files actions) := by
  have hstart := sound_start hempty
  rw [run]
  generalize ({ workshop := { files } } : Chronicle) = c at hstart
  induction actions generalizing c with
  | nil => exact hstart
  | cons action actions ih => exact ih _ (sound_step hstart action)

/-! ## Readings of the clock -/

/-- An action adds at most its own reading to those of the stored units. -/
theorem times_step (c : Chronicle) (action : Action) :
    ((c.step action).deposits.map Deposit.time).Sublist
      (c.deposits.map Deposit.time ++ action.reading?.toList) := by
  cases action with
  | openDatabase name =>
    simp only [step]
    split <;> simp [Action.reading?]
  | write sink stamp dest code =>
    simp only [step]
    split <;> simp [Action.reading?]
  | latest => simp [step, Action.reading?]
  | count => simp [step, Action.reading?]
  | close sink =>
    simp only [step]
    split <;> simp [Action.reading?]

/-- The readings of the stored units are among those of a run, in order. -/
theorem times_run (files : FileTree) (actions : List Action) :
    ((run files actions).deposits.map Deposit.time).Sublist
      (actions.filterMap Action.reading?) := by
  suffices ∀ c : Chronicle, ((actions.foldl step c).deposits.map Deposit.time).Sublist
      (c.deposits.map Deposit.time ++ actions.filterMap Action.reading?) from
    this { workshop := { files } }
  induction actions with
  | nil => simp
  | cons action actions ih =>
    intro c
    refine (ih (c.step action)).trans ?_
    rw [show action :: actions = [action] ++ actions from rfl, List.filterMap_append,
      ← List.append_assoc]
    refine List.Sublist.append_right ?_ _
    have hstep := times_step c action
    cases hreading : action.reading? with
    | none => simpa [hreading] using hstep
    | some t => simpa [hreading] using hstep

/-! ## Answers -/

namespace Sound

variable {files : FileTree} {c : Chronicle}

/-- An open sink is on a database with a history. -/
theorem history (h : Sound files c) {sink : Nat} (hopen : c.IsOpen sink) :
    ∃ name a place history, c.names[sink]? = some name ∧ Workshop.addressOf? name = some a ∧
      c.workshop.sinks[sink]? = some (Sink.database place a.writable true) ∧
      c.workshop.historyAt? place.home = some history := by
  obtain ⟨a, place, ha, -, hsink⟩ := h.opened sink _ (List.getElem?_eq_getElem hopen.1)
  rw [decide_eq_true hopen.2] at hsink
  have hhome : c.workshop.home? sink = some place.home := by
    simp [Workshop.home?, Workshop.place?, hsink, Sink.place?]
  obtain ⟨history, hhistory⟩ := Option.isSome_iff_exists.1 (h.homes sink _ hhome)
  exact ⟨_, a, place, history, List.getElem?_eq_getElem hopen.1, ha, hsink, hhistory⟩

/-- The history of a sink holds what was kept in its database. -/
theorem map_code_named (h : Sound files c) {sink : Nat} {home : Home} {history : History}
    (hhome : c.workshop.home? sink = some home)
    (hhistory : c.workshop.historyAt? home = some history) (dest : String) :
    (history.named dest).map Row.code = c.kept sink dest := by
  rw [History.named, h.rows home history hhistory, List.filter_map, List.map_map,
    List.filter_filter, kept]
  simp only [Function.comp_def, Deposit.row, Shares, hhome, Bool.decide_and]
  rfl

/-- An open sink counts what was kept in its database, and finds the last of it. -/
theorem answers (h : Sound files c)
    (hclock : (c.deposits.map Deposit.time).Pairwise (· ≤ ·)) {sink : Nat}
    (hopen : c.IsOpen sink) (dest : String) :
    c.workshop.count sink dest = .ok (c.kept sink dest).length ∧
    c.workshop.latest sink dest
      = (c.kept sink dest).getLast?.elim (.error (.noUnit dest)) .ok := by
  obtain ⟨name, a, place, history, -, -, hsink, hhistory⟩ := h.history hopen
  have hhome : c.workshop.home? sink = some place.home := by
    simp [Workshop.home?, Workshop.place?, hsink, Sink.place?]
  have hkept := h.map_code_named hhome hhistory dest
  have hsorted : history.rows.Pairwise (·.time ≤ ·.time) := by
    rw [h.rows _ _ hhistory, List.pairwise_map]
    exact (List.pairwise_map.1 hclock).sublist List.filter_sublist
  constructor
  · simp only [Workshop.count, hsink, Workshop.history?_eq, hhistory]
    rw [History.count, ← hkept, List.length_map]
  · simp only [Workshop.latest, hsink, Workshop.history?_eq, hhistory]
    rw [History.latest?_eq hsorted, ← List.getLast?_map, hkept]
    cases (c.kept sink dest).getLast? <;> rfl

/-- An open sink whose address allows writing stores every unit. -/
theorem stores (h : Sound files c) {sink : Nat} (hopen : c.IsOpen sink) {name : String}
    {a : Address} (hname : c.names[sink]? = some name) (ha : Workshop.addressOf? name = some a)
    (hwritable : a.writable = true) (stamp : Stamp) (dest code : String) :
    (c.workshop.write sink stamp dest code).outcome = .ok () := by
  obtain ⟨name', a', place, history, hname', ha', hsink, hhistory⟩ := h.history hopen
  cases hname.symm.trans hname'
  cases ha.symm.trans ha'
  simp only [Workshop.write, hsink, hwritable, Workshop.history?_eq, hhistory]

theorem home?_of_file? (h : Sound files c) {sink : Nat} {l : Location}
    (hfile : c.file? files sink = some l) : c.workshop.home? sink = some (.file l) := by
  obtain ⟨name, hname, hrest⟩ := Option.bind_eq_some_iff.1 hfile
  obtain ⟨a, ha, hl⟩ := Option.bind_eq_some_iff.1 hrest
  split_ifs at hl with hmemory
  cases hl
  obtain ⟨b, place, hb, hsuits, hsink⟩ := h.opened sink name hname
  cases ha.symm.trans hb
  cases place with
  | memory index other => exact absurd hsuits.1 hmemory
  | file l => simp [Workshop.home?, Workshop.place?, hsink, Sink.place?, Database.home, hsuits.2]

/-- Sinks that were opened on files share their history when the files are the same. -/
theorem shares_iff (h : Sound files c) {sink other : Nat} {l k : Location}
    (hsink : c.file? files sink = some l) (hother : c.file? files other = some k) :
    c.Shares sink other ↔ l = k := by
  rw [Shares, h.home?_of_file? hsink, h.home?_of_file? hother]
  simp

/-- A sink that was opened in memory shares its history with no other. -/
theorem shares_iff_eq (h : Sound files c) {sink : Nat}
    (hname : c.names[sink]? = some "" ∨ c.names[sink]? = some ":memory:") (other : Nat) :
    c.Shares sink other ↔ other = sink := by
  have haddress : ∃ name, c.names[sink]? = some name ∧
      Workshop.addressOf? name = some { path := ":memory:" } := by
    obtain hname | hname := hname <;> exact ⟨_, hname, by rfl⟩
  obtain ⟨name, hname, ha⟩ := haddress
  obtain ⟨b, place, hb, hsuits, hsink⟩ := h.opened sink name hname
  cases ha.symm.trans hb
  cases place with
  | file l => cases hsuits.1
  | memory index shared =>
    obtain rfl : shared = none := hsuits.2
    have hplace : c.workshop.place? sink = some (.memory index none) := by
      simp [Workshop.place?, hsink, Sink.place?]
    refine ⟨fun hshares => ?_, fun heq => heq ▸ rfl⟩
    rw [Shares, Workshop.home?, hplace] at hshares
    obtain ⟨q, hq, hhome⟩ := Option.map_eq_some_iff.1 hshares.symm
    cases q with
    | file l => cases hhome
    | memory k shared =>
      cases hhome
      exact h.single sink other index shared hplace hq

/-- A closed sink refuses everything but being closed, and nothing changes. -/
theorem refuses (h : Sound files c) {sink : Nat} (hclosed : sink ∈ c.closed) :
    (∀ stamp dest code,
      c.workshop.write sink stamp dest code = ⟨.error (.storing dest .closed), [], c.workshop⟩) ∧
    (∀ dest, c.workshop.latest sink dest = .error (.finding dest .closed) ∧
      c.workshop.count sink dest = .error (.counting .closed)) ∧
    c.workshop.close sink = ⟨.ok (), [], c.workshop⟩ := by
  obtain ⟨place, writable, hsink⟩ := h.database (h.closed sink hclosed)
  rw [decide_eq_false (not_not.2 hclosed)] at hsink
  refine ⟨fun stamp dest code => ?_, fun dest => ⟨?_, ?_⟩, ?_⟩
  · simp only [Workshop.write, hsink]
  · simp only [Workshop.latest, hsink]
  · simp only [Workshop.count, hsink]
  · obtain ⟨hlt, hget⟩ := List.getElem?_eq_some_iff.1 hsink
    simp only [Workshop.close, hsink]
    rw [← hget, List.set_getElem_self]

end Sound

/-- A closed sink may be closed again. -/
theorem close_twice :
    let c := run {} [.openDatabase "", .close 0]
    0 ∈ c.closed ∧ (c.workshop.close 0).outcome = .ok () := by
  decide +kernel

/-- The history of a database is complete after every run in which the clock never goes back.
* An open sink counts the units that were stored under a name in its database and finds the last of
  them, and it stores more if its address allows writing.
* Sinks that were opened on files share their history when the files are the same, and a sink that
  was opened in memory shares it with no other.
* Storing a unit leaves the answers about other names as they are.
* A closed sink refuses to store, find and count, and can be closed again, and nothing changes. -/
theorem run_keeps_history {files : FileTree}
    (hempty : ∀ l h, files.get? l = some (.database h) → h = {}) {actions : List Action}
    (hclock : (actions.filterMap Action.reading?).Pairwise (· ≤ ·)) :
    let c := run files actions
    (∀ sink, c.IsOpen sink → ∀ dest,
      c.workshop.count sink dest = .ok (c.kept sink dest).length ∧
      c.workshop.latest sink dest
        = (c.kept sink dest).getLast?.elim (.error (.noUnit dest)) .ok) ∧
    (∀ sink, c.IsOpen sink → ∀ name a, c.names[sink]? = some name →
      Workshop.addressOf? name = some a → a.writable = true →
      ∀ stamp dest code, (c.workshop.write sink stamp dest code).outcome = .ok ()) ∧
    (∀ sink other l k, c.file? files sink = some l → c.file? files other = some k →
      (c.Shares sink other ↔ l = k)) ∧
    (∀ sink, c.names[sink]? = some "" ∨ c.names[sink]? = some ":memory:" →
      ∀ other, c.Shares sink other ↔ other = sink) ∧
    (∀ sink stamp dest code other name, name ≠ dest →
      (c.workshop.write sink stamp dest code).after.count other name
        = c.workshop.count other name ∧
      (c.workshop.write sink stamp dest code).after.latest other name
        = c.workshop.latest other name) ∧
    (∀ sink ∈ c.closed,
      (∀ stamp dest code, c.workshop.write sink stamp dest code
        = ⟨.error (.storing dest .closed), [], c.workshop⟩) ∧
      (∀ dest, c.workshop.latest sink dest = .error (.finding dest .closed) ∧
        c.workshop.count sink dest = .error (.counting .closed)) ∧
      c.workshop.close sink = ⟨.ok (), [], c.workshop⟩) := by
  intro c
  have hsound : Sound files c := sound_run hempty actions
  have htimes : (c.deposits.map Deposit.time).Pairwise (· ≤ ·) :=
    hclock.sublist (times_run files actions)
  refine ⟨?_, ?_, ?_, ?_, ?_, ?_⟩
  · intro sink hopen dest
    exact hsound.answers htimes hopen dest
  · intro sink hopen name a hname ha hwritable stamp dest code
    exact hsound.stores hopen hname ha hwritable stamp dest code
  · intro sink other l k hsink hother
    exact hsound.shares_iff hsink hother
  · intro sink hname other
    exact hsound.shares_iff_eq hname other
  · intro sink stamp dest code other name hname
    exact Workshop.answers_write (hsound.ne_file sink) stamp hname code other
  · intro sink hclosed
    exact hsound.refuses hclosed

/-- A database that is closed and opened again under another path, with two units stored at the same
reading of the clock, beside one in memory. -/
theorem run_keeps_history_reopened :
    let files : FileTree := { work := ["home"] }
    let actions : List Action :=
      [.openDatabase "u.db", .write 0 ⟨"a", 5⟩ "m.go" "x", .close 0, .openDatabase "./u.db",
        .openDatabase "", .write 1 ⟨"b", 5⟩ "m.go" "y", .write 2 ⟨"c", 7⟩ "m.go" "z"]
    let c := run files actions
    (∀ l h, files.get? l = some (.database h) → h = {}) ∧
    (actions.filterMap Action.reading?).Pairwise (· ≤ ·) ∧
    c.workshop.count 1 "m.go" = .ok 2 ∧ c.workshop.latest 1 "m.go" = .ok "y" ∧
    c.Shares 0 1 ∧ ¬ c.Shares 2 1 ∧ c.workshop.latest 2 "n.go" = .error (.noUnit "n.go") ∧
    c.workshop.count 0 "m.go" = .error (.counting .closed) := by
  intro files actions c
  have hempty : ∀ l h, files.get? l = some (.database h) → h = {} := by
    intro l h hget
    simp [FileTree.get?, files] at hget
  have hclock : (actions.filterMap Action.reading?).Pairwise (· ≤ ·) := by decide
  obtain ⟨hanswers, -, hfiles, hmemory, -, hclosed⟩ := run_keeps_history hempty hclock
  have hreopened : c.kept 1 "m.go" = ["x", "y"] := by decide +kernel
  have hother : c.kept 2 "n.go" = [] := by decide +kernel
  obtain ⟨hcount, hlatest⟩ := hanswers 1 (by decide +kernel) "m.go"
  obtain ⟨-, hnone⟩ := hanswers 2 (by decide +kernel) "n.go"
  have hshares : c.Shares 0 1 :=
    (hfiles 0 1 ["home", "u.db"] ["home", "u.db"] (by decide +kernel) (by decide +kernel)).2 rfl
  have hown : ¬ c.Shares 2 1 := fun h =>
    absurd ((hmemory 2 (.inl (by decide +kernel)) 1).1 h) (by decide)
  refine ⟨hempty, hclock, ?_, ?_, hshares, hown, ?_, ((hclosed 0 (by decide +kernel)).2.1 _).2⟩
  · rw [hcount, hreopened]
    rfl
  · rw [hlatest, hreopened]
    rfl
  · rw [hnone, hother]
    rfl

end Chronicle

end Scaffold
