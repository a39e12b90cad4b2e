import Scaffold.Command.Run
import Scaffold.Store.Ledger

/-!
# The program

The outer layer of the command line.  It looks up the variables of the
environment and the files that a run may name, hands them to `Command.run`, and
then writes out what the run wrote and the files it changed.  A database is kept
as a ledger.  A unit with statements is never tidied.
-/

namespace Scaffold.Program

/-- The variables of the process that settings are read from. -/
def environment : IO Environment := do
  let found ← Settings.variableNames.filterMapM fun name => do
    return (← IO.getEnv name).map fun value => (name, value)
  return ⟨found⟩

/-- The entry of a regular file with a content. -/
def entryOf (content : String) : Entry :=
  match History.ofLedger? content with
  | some history => .database history
  | none => .file content

/-- A tree with the entries on the way to a path. -/
def observe (t : FileTree) (path : String) : IO FileTree := do
  let here ← IO.currentDir
  let location := (Path.names path).foldl (Path.push true) (t.start path)
  (Path.steps location).foldlM (fun t l => do
    let file := here / Path.ofNames true l
    if ← file.isDir then return t.set l .directory
    if !(← file.pathExists) then return t
    let content ← try IO.FS.readFile file catch _ => pure "�"
    return t.set l (entryOf content)) t

/-- The working directory with the entries on the way to paths. -/
def observeAll (paths : List String) : IO FileTree := do
  let here ← IO.currentDir
  let work := (Path.names here.toString).filter (!Path.isStay ·)
  paths.foldlM observe { work }

/-- The paths that a run may use. -/
def paths (env : Environment) (args : List String) : IO (List String) := do
  let files ← observeAll [".env"]
  let settings := match (Settings.load files env []).1 with
    | .ok settings =>
      let database := (Address.ofName? settings.database).map Address.path
      [settings.source, settings.dest] ++ database.toList
    | .error _ => []
  let values := args.map fun arg => String.ofList ((arg.toList.dropWhile (· ≠ '=')).drop 1)
  return ".env" :: settings ++ args ++ values

/-- The entries that a run changed, written out. -/
def commit (before after : FileTree) : IO Unit := do
  let here ← IO.currentDir
  for (l, e) in after.entries do
    if (l, e) ∉ before.entries then
      let file := here / Path.ofNames true l
      match e with
      | .directory => IO.FS.createDirAll file
      | .file content => IO.FS.writeFile file content
      | .database history => IO.FS.writeFile file history.toLedger

/-- A fresh identity for a stored unit. -/
def freshStamp : IO Stamp := do
  let part (digits : Nat) : IO String := do
    return String.ofList (Text.hex digits (← IO.rand 0 (Nat.pow 16 digits - 1)))
  let id := "-".intercalate [← part 8, ← part 4, "4" ++ (← part 3), "8" ++ (← part 3), ← part 12]
  return ⟨id, ← IO.monoNanosNow⟩

end Scaffold.Program

open Scaffold in
/-- The program. -/
def main (args : List String) : IO UInt32 := do
  let env ← Program.environment
  let before ← Program.observeAll (← Program.paths env args)
  let outcome := Command.run ⟨Tidy.bare, ← Program.freshStamp⟩ env before args
  IO.print outcome.output
  IO.eprint outcome.errors
  Program.commit before outcome.files
  return outcome.exit.toUInt32
