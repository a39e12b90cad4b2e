import Scaffold.Files.Path
import Scaffold.Store.History

/-!
# File trees

A file tree holds an entry for each location that is in use, where a location is
the list of names that leads there from the root.  An entry is a regular file, a
directory or a database.  The working directory and the directories above it are
always there.

A path is walked name by name, from the root or from the working directory.
Every name but the last has to lead to a directory, `.` and the empty name stay,
and `..` goes up.  A path that ends in a slash has to name a directory.  A path
that cannot be one is refused before it is walked, and a name that is too long
when the walk comes to it.

Making a directory and writing a file set one entry each and remove none.
-/

namespace Scaffold

/-- What stands at a location. -/
inductive Entry where
  | file (content : String)
  | directory
  | database (history : History)
  deriving DecidableEq, Repr

/-- The content of an entry that is no directory.  A database shows nothing of what it holds. -/
def Entry.content? : Entry → Option String
  | .file content => some content
  | .database _ => some "<sqlite>"
  | .directory => none

/-- The names that lead from the root to an entry. -/
abbrev Location := List String

/-- The entries of a file system, and the working directory. -/
structure FileTree where
  /-- The entries, each with its location. -/
  entries : List (Location × Entry) := []
  /-- The working directory. -/
  work : Location := []
  deriving DecidableEq, Repr

/-- Why a file cannot be used. -/
inductive FileCause where
  | missing
  | notDirectory
  | isDirectory
  | invalid
  | tooLong
  deriving DecidableEq, Repr

/-- What is said about a cause. -/
def FileCause.message : FileCause → String
  | .missing => "no such file or directory"
  | .notDirectory => "not a directory"
  | .isDirectory => "is a directory"
  | .invalid => "invalid argument"
  | .tooLong => "file name too long"

/-- What was tried with a file. -/
inductive FileAction where
  | opening
  | reading
  | making
  deriving DecidableEq, Repr

/-- The name of an action. -/
def FileAction.name : FileAction → String
  | .opening => "open"
  | .reading => "read"
  | .making => "mkdir"

/-- An action on a path that failed. -/
structure FileFault where
  /-- What was tried. -/
  action : FileAction
  /-- The path it was tried with. -/
  path : String
  /-- Why it failed. -/
  cause : FileCause
  deriving DecidableEq, Repr

/-- What is said about a failed action. -/
def FileFault.message (f : FileFault) : String :=
  f.action.name ++ " " ++ f.path ++ ": " ++ f.cause.message

namespace FileTree

/-! ## Entries -/

/-- The entry at a location. -/
def get? (t : FileTree) (l : Location) : Option Entry :=
  if l.isPrefixOf t.work then some .directory else (t.entries.find? (·.1 = l)).map (·.2)

/-- Whether there is a directory at a location. -/
def isDirectory (t : FileTree) (l : Location) : Bool := t.get? l = some .directory

/-- Entries with the one at a location replaced, or added when there is none. -/
def setEntry (l : Location) (e : Entry) : List (Location × Entry) → List (Location × Entry)
  | [] => [(l, e)]
  | (k, d) :: rest => if k = l then (l, e) :: rest else (k, d) :: setEntry l e rest

/-- A tree with the entry at a location set. -/
def set (t : FileTree) (l : Location) (e : Entry) : FileTree :=
  { t with entries := setEntry l e t.entries }

theorem find?_setEntry (l k : Location) (e : Entry) : ∀ entries : List (Location × Entry),
    ((setEntry l e entries).find? (·.1 = k)).map (·.2) =
      if k = l then some e else (entries.find? (·.1 = k)).map (·.2)
  | [] => by by_cases h : k = l <;> simp [setEntry, h, eq_comm]
  | (j, d) :: rest => by
    have ih := find?_setEntry l k e rest
    by_cases hj : j = l <;> by_cases hk : k = l <;> by_cases hjk : j = k <;>
      simp_all [setEntry, eq_comm]

/-- Setting an entry changes what is at its location, unless the working directory is there or below
it, and nothing else. -/
theorem get?_set (t : FileTree) (l k : Location) (e : Entry) :
    (t.set l e).get? k = if k = l ∧ ¬l.isPrefixOf t.work then some e else t.get? k := by
  have := find?_setEntry l k e t.entries
  by_cases hk : k = l <;> by_cases hw : k.isPrefixOf t.work <;>
    simp_all [get?, set]

/-- A tree in which the locations on the way to `l` are there. -/
def withParents (t : FileTree) (l : Location) : FileTree :=
  (Path.steps l.dropLast).foldl (fun t p => if (t.get? p).isNone then t.set p .directory else t) t

/-- A tree with a working directory that holds files at the given paths.  A path that ends in a
slash is a directory. -/
def ofFiles (work : Location) (files : List (String × String)) : FileTree :=
  files.foldl (fun t (path, content) =>
    let l := work ++ (Path.names path).filter (!Path.isStay ·)
    (t.withParents l).set l (if path.endsWith "/" then .directory else .file content)) { work }

/-- The regular files and databases below the working directory with their paths. -/
def files (t : FileTree) : List (String × Entry) :=
  t.entries.filterMap fun (l, e) =>
    if e ≠ .directory ∧ t.work.isPrefixOf l then
      some (Path.ofNames false (l.drop t.work.length), e)
    else none

/-! ## Walking paths -/

/-- Why a text is no path. -/
def pathCause? (path : String) : Option FileCause :=
  if '\x00' ∈ path.toList then some .invalid
  else if Path.sizeLimit < path.utf8ByteSize then some .tooLong
  else none

/-- The location where a path starts. -/
def start (t : FileTree) (path : String) : Location :=
  if Path.isAbsolute path then [] else t.work

/-- The location that names lead to from a location. -/
def walk (t : FileTree) (l : Location) : List String → Except FileCause Location
  | [] => .ok l
  | name :: names =>
    if t.isDirectory l then
      if Path.isStay name then t.walk l names
      else if name = ".." then t.walk l.dropLast names
      else if Path.isLongName name then .error .tooLong
      else if (t.get? (l ++ [name])).isSome then t.walk (l ++ [name]) names
      else .error .missing
    else .error .notDirectory

/-- The location of an existing entry. -/
def locate (t : FileTree) (path : String) : Except FileCause Location :=
  match pathCause? path with
  | some cause => .error cause
  | none => if path = "" then .error .missing else t.walk (t.start path) (Path.names path)

/-- The location at which a file with this path is created or replaced.  Its parent has to be a
directory, and it cannot be a directory itself. -/
def target (t : FileTree) (path : String) : Except FileCause Location :=
  let all := Path.names path
  let names := Path.trimNames all
  match pathCause? path, names.getLast? with
  | some cause, _ => .error cause
  | none, none => .error (if path = "" then .missing else .isDirectory)
  | none, some last => do
    let parent ← t.walk (t.start path) names.dropLast
    if !t.isDirectory parent then .error .notDirectory
    else if names.length ≠ all.length ∨ last = "." ∨ last = ".." then .error .isDirectory
    else if Path.isLongName last then .error .tooLong
    else if t.isDirectory (parent ++ [last]) then .error .isDirectory
    else .ok (parent ++ [last])

/-! ## Reading and writing -/

/-- The content of the file at a path. -/
def read (t : FileTree) (path : String) : Except FileFault String :=
  match t.locate path with
  | .error cause => .error ⟨.opening, path, cause⟩
  | .ok l => match t.get? l with
    | none => .error ⟨.opening, path, .missing⟩
    | some e => match e.content? with
      | some content => .ok content
      | none => .error ⟨.reading, path, .isDirectory⟩

/-- A tree with a directory for each of the names, one below the other, from a location on, up to
the first that cannot be made.  `made` holds the names that led to that location. -/
def makeFrom (t : FileTree) (absolute : Bool) (made : List String) (l : Location) :
    List String → Option FileFault × FileTree
  | [] => (none, t)
  | name :: names =>
    let made := made ++ [name]
    let path := Path.ofNames absolute made
    match pathCause? path with
    | some cause => (some ⟨.making, path, cause⟩, t)
    | none =>
      if name = ".." then t.makeFrom absolute made l.dropLast names
      else if Path.isLongName name then (some ⟨.making, path, .tooLong⟩, t)
      else
        let l := l ++ [name]
        match t.get? l with
        | some .directory => t.makeFrom absolute made l names
        | some _ => (some ⟨.making, path, .notDirectory⟩, t)
        | none => (t.set l .directory).makeFrom absolute made l names

/-- A tree with the directory of a path and all directories above it.  When one of them cannot be
made, those above it stay. -/
def makeParents (t : FileTree) (path : String) : Option FileFault × FileTree :=
  t.makeFrom (Path.isAbsolute path) [] (t.start path) (Path.directory path)

/-- A tree with the content of the file at a path replaced. -/
def write (t : FileTree) (path content : String) : Except FileFault FileTree :=
  match t.target path with
  | .error cause => .error ⟨.opening, path, cause⟩
  | .ok l => .ok (t.set l (.file content))

end FileTree

end Scaffold
