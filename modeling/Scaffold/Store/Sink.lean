import Scaffold.Files.Tree
import Scaffold.Log.Record
import Scaffold.Size
import Scaffold.Store.Address
import Scaffold.Text.Quoted

/-!
# Sinks

A sink keeps units under destination names.  A file sink writes each unit to the
file that its destination names, and creates the directories above it.  A
database sink adds each unit to a history, so that earlier units of the same
destination stay there.  A history in the file tree is shared by all sinks on
its location, also later ones.  A history in memory belongs to its sink alone,
unless its address lets open sinks share it under a name.

A `Workshop` is a file tree with the sinks that were opened on it, in order, and
the histories in memory.  Sinks are named by their place in that order and never
go away: a closed database sink refuses everything, and a file sink takes no
notice of being closed.  Histories in memory do not go away either, but a name
leads to one only as long as a sink on it is open.
-/

namespace Scaffold

/-- Why a database does not answer. -/
inductive DatabaseCause where
  | closed
  | refused
  deriving DecidableEq, Repr

/-- What is said about a cause.  The details of a refusal are not told. -/
def DatabaseCause.message : DatabaseCause → String
  | .closed => "sql: database is closed"
  | .refused => "<sqlite>"

/-- Why a sink cannot do what it is asked for. -/
inductive SinkFault where
  /-- There is no such kind of sink. -/
  | unknownKind (kind : String)
  /-- The database cannot be opened. -/
  | unopened
  /-- A file cannot be written. -/
  | file (fault : FileFault)
  /-- A unit cannot be stored in a database. -/
  | storing (dest : String) (cause : DatabaseCause)
  /-- A unit cannot be looked up in a database. -/
  | finding (dest : String) (cause : DatabaseCause)
  /-- The units of a database cannot be counted. -/
  | counting (cause : DatabaseCause)
  /-- No unit was stored under this name. -/
  | noUnit (dest : String)
  /-- The sink does not keep a history, or there is no such sink. -/
  | noHistory
  deriving DecidableEq, Repr

/-- What is said about a fault. -/
def SinkFault.message : SinkFault → String
  | .unknownKind kind => "unknown sink " ++ Text.quote kind
  | .unopened => "failed to create units table: " ++ DatabaseCause.refused.message
  | .file fault => fault.message
  | .storing dest cause => "failed to store unit " ++ dest ++ ": " ++ cause.message
  | .finding dest cause => "failed to read unit " ++ dest ++ ": " ++ cause.message
  | .counting cause => "failed to count units: " ++ cause.message
  | .noUnit dest => "no unit stored for " ++ dest
  | .noHistory => "no history"

/-! ## Sinks by kind -/

/-- Where the history of a database sink is. -/
inductive Database where
  /-- Among the histories in memory, and the name under which it is shared. -/
  | memory (index : Nat) (name : Option String)
  /-- In the file tree. -/
  | file (location : Location)
  deriving DecidableEq, Repr

/-- A place where units are kept. -/
inductive Sink where
  | file
  | database (place : Database) (writable isOpen : Bool)
  deriving DecidableEq, Repr

/-- The identity of a stored unit: a name for its record and a clock reading. -/
structure Stamp where
  /-- The name. -/
  id : String
  /-- The clock reading. -/
  time : Int
  deriving DecidableEq, Repr

/-- The greatest number of bytes of the full path of a database. -/
def databasePathLimit : Nat := 511

/-- The location one name further on the way to a database.  The way is taken name by name without
regard to what is missing, so `..` undoes any name before it.  A name below a file is refused. -/
def FileTree.towards? (t : FileTree) (l : Location) (name : String) : Option Location :=
  if Path.isStay name then some l
  else if name = ".." then some l.dropLast
  else
    let next := l ++ [name]
    if databasePathLimit < (Path.ofNames true next).utf8ByteSize then none
    else match t.walk [] next with
      | .ok _ | .error .missing => some next
      | .error _ => none

/-- The location of the database with a path.  There is none at the root. -/
def FileTree.databaseLocation? (t : FileTree) (path : String) : Option Location := do
  let l ← (Path.names path).foldlM t.towards? (t.start path)
  if l = [] then none else some l

/-- The location of the database with an address, and the file tree after opening it.  A missing or
empty file becomes a database, and any other file is refused.  A file that was created stays, empty,
when the database cannot be used. -/
def FileTree.openDatabase (t : FileTree) (a : Address) : Option Location × FileTree :=
  match t.databaseLocation? a.path with
  | none => (none, t)
  | some l => match t.get? l with
    | none =>
      if a.access ≠ .create ∨ !t.isDirectory l.dropLast then (none, t)
      else if a.sound && a.writable then (some l, t.set l (.database {}))
      else (none, t.set l (.file ""))
    | some (.file "") =>
      if a.sound && a.writable then (some l, t.set l (.database {})) else (none, t)
    | some (.database _) => (if a.sound then some l else none, t)
    | some _ => (none, t)

/-- A unit written to the file at a path, below new directories if need be.  The directories stay
when the file cannot be written. -/
def FileTree.writeUnit (t : FileTree) (dest code : String) : Option FileFault × FileTree :=
  match t.makeParents dest with
  | (some fault, t) => (some fault, t)
  | (none, t) => match t.write dest code with
    | .error fault => (some fault, t)
    | .ok t => (none, t)

/-! ## The sinks of a file tree -/

/-- A file tree with the sinks opened on it, in order. -/
structure Workshop where
  /-- The file tree. -/
  files : FileTree := {}
  /-- The sinks, the first opened first. -/
  sinks : List Sink := []
  /-- The histories in memory. -/
  memory : List History := []
  deriving DecidableEq, Repr

/-- The record of a unit that a file sink wrote. -/
def wroteRecord (dest code : String) : Log.Record where
  level := .info
  message := "wrote unit"
  attributes := [("dest", .text dest), ("size", .text (Size.text code.utf8ByteSize))]

/-- The record of a unit that a database sink stored. -/
def storedRecord (stamp : Stamp) (dest code : String) : Log.Record where
  level := .info
  message := "stored unit"
  attributes :=
    [("id", .text stamp.id), ("dest", .text dest), ("size", .text (Size.text code.utf8ByteSize))]

/-- What an operation on a workshop gives. -/
structure Step (α : Type) where
  /-- Its result or why there is none. -/
  outcome : Except SinkFault α
  /-- What it logged. -/
  records : List Log.Record := []
  /-- The workshop after it. -/
  after : Workshop

namespace Workshop

/-- The history of a database. -/
def history? (w : Workshop) : Database → Option History
  | .memory index _ => w.memory[index]?
  | .file l => match w.files.get? l with
    | some (.database history) => some history
    | _ => none

/-- A workshop with the history of a database replaced. -/
def setHistory (w : Workshop) (history : History) : Database → Workshop
  | .memory index _ => { w with memory := w.memory.set index history }
  | .file l => { w with files := w.files.set l (.database history) }

/-- A workshop with one more sink, and the name of that sink. -/
def add (w : Workshop) (sink : Sink) : Step Nat where
  outcome := .ok w.sinks.length
  after := { w with sinks := w.sinks ++ [sink] }

/-- The history in memory that open sinks share under a name. -/
def sharedIndex? (w : Workshop) (name : String) : Option Nat :=
  w.sinks.findSome? fun
    | .database (.memory index (some other)) _ true => if other = name then some index else none
    | _ => none

/-- A sink on a database in memory.  It shares the history under its name if there is one, and has
a new one otherwise. -/
def openMemory (w : Workshop) (a : Address) : Step Nat :=
  match a.sharedName?.bind w.sharedIndex? with
  | some index =>
    if a.sound then w.add (.database (.memory index a.sharedName?) a.writable true)
    else { outcome := .error .unopened, after := w }
  | none =>
    if a.sound && a.writable then
      let place := Database.memory w.memory.length a.sharedName?
      let fresh : History := {}
      { w with memory := w.memory ++ [fresh] }.add (.database place true true)
    else { outcome := .error .unopened, after := w }

/-- A sink on the database with an address. -/
def openAddress (w : Workshop) (a : Address) : Step Nat :=
  if a.inMemory then w.openMemory a
  else match w.files.openDatabase a with
    | (none, files) => { outcome := .error .unopened, after := { w with files } }
    | (some l, files) => { w with files }.add (.database (.file l) a.writable true)

/-- A sink of the named kind.  A database without a name is in memory. -/
def openSink (w : Workshop) (kind name : String) : Step Nat :=
  if kind = "" ∨ kind = "file" then w.add .file
  else if kind = "sqlite" then
    match Address.ofName? (if name = "" then ":memory:" else name) with
    | none => { outcome := .error .unopened, after := w }
    | some a => w.openAddress a
  else { outcome := .error (.unknownKind kind), after := w }

/-- A unit stored in a sink under a destination. -/
def write (w : Workshop) (sink : Nat) (stamp : Stamp) (dest code : String) : Step Unit :=
  match w.sinks[sink]? with
  | none => { outcome := .error .noHistory, after := w }
  | some .file => match w.files.writeUnit dest code with
    | (some fault, files) => { outcome := .error (.file fault), after := { w with files } }
    | (none, files) =>
      { outcome := .ok (), records := [wroteRecord dest code], after := { w with files } }
  | some (.database _ _ false) => { outcome := .error (.storing dest .closed), after := w }
  | some (.database place writable true) => match writable, w.history? place with
    | true, some history =>
      { outcome := .ok ()
        records := [storedRecord stamp dest code]
        after := w.setHistory (history.record stamp.time dest code) place }
    | _, _ => { outcome := .error (.storing dest .refused), after := w }

/-- A sink closed. -/
def close (w : Workshop) (sink : Nat) : Step Unit :=
  match w.sinks[sink]? with
  | none => { outcome := .error .noHistory, after := w }
  | some .file => { outcome := .ok (), after := w }
  | some (.database place writable _) =>
    { outcome := .ok ()
      after := { w with sinks := w.sinks.set sink (.database place writable false) } }

/-- The latest unit that a sink stored under a destination. -/
def latest (w : Workshop) (sink : Nat) (dest : String) : Except SinkFault String :=
  match w.sinks[sink]? with
  | some (.database _ _ false) => .error (.finding dest .closed)
  | some (.database place _ true) => match w.history? place with
    | none => .error (.finding dest .refused)
    | some history => match history.latest? dest with
      | some code => .ok code
      | none => .error (.noUnit dest)
  | _ => .error .noHistory

/-- How many units a sink stored under a destination. -/
def count (w : Workshop) (sink : Nat) (dest : String) : Except SinkFault Nat :=
  match w.sinks[sink]? with
  | some (.database _ _ false) => .error (.counting .closed)
  | some (.database place _ true) => match w.history? place with
    | none => .error (.counting .refused)
    | some history => .ok (history.count dest)
  | _ => .error .noHistory

end Workshop

end Scaffold
