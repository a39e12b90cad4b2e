import Scaffold.Environment.Basic
import Scaffold.Environment.File
import Scaffold.Files.Tree
import Scaffold.Switch

/-!
# Settings

The settings of a run come from the environment.  Variable files are loaded
first, in order.  A file that is not there is passed over.  A file that cannot
be read adds nothing and ends the loading.  A variable that is already present,
even with the empty text, keeps its value.

Then the settings are read off the environment.  An empty or absent variable
takes its default.
-/

namespace Scaffold

/-- The settings of a run. -/
structure Settings where
  /-- The mode of the log. -/
  mode : String := ""
  /-- The document to compile. -/
  source : String := "./source/index.json"
  /-- Where the unit goes. -/
  dest : String := "./dest/main.go"
  /-- The kind of sink that takes the unit. -/
  sink : String := "file"
  /-- The path of the database. -/
  database : String := "esgo.db"
  /-- Whether the tidy pass runs. -/
  tidy : Bool := false
  deriving DecidableEq, Repr

/-- Why settings cannot be used. -/
inductive SettingsFault where
  /-- A variable file cannot be opened or read. -/
  | file (name : String) (fault : FileFault)
  /-- A variable file is malformed. -/
  | content (name : String) (fault : EnvFile.Fault)
  /-- The switch of the tidy pass is neither true nor false. -/
  | switch (text : String)
  /-- There is no such kind of sink. -/
  | sink (kind : String)
  /-- There is no destination. -/
  | noDest
  deriving DecidableEq, Repr

/-- What is said about a fault. -/
def SettingsFault.message : SettingsFault → String
  | .file name fault => name ++ ": " ++ fault.message
  | .content name fault => name ++ ": " ++ fault.message
  | .switch text =>
    "ESGO_GOIMPORTS: strconv.ParseBool: parsing " ++ Text.quote text ++ ": invalid syntax"
  | .sink kind => "ESGO_SINK: unknown sink " ++ Text.quote kind
  | .noDest => "ESGO_DEST: destination is empty"

namespace Settings

/-- Settings that name a known sink and a destination. -/
def validate (s : Settings) : Except SettingsFault Unit :=
  if s.sink ≠ "file" ∧ s.sink ≠ "sqlite" then .error (.sink s.sink)
  else if s.dest = "" then .error .noDest
  else .ok ()

/-- The variables that settings are read from. -/
def variableNames : List String :=
  ["ESGO_ENV", "ESGO_SOURCE", "ESGO_DEST", "ESGO_SINK", "ESGO_SQLITE_PATH", "ESGO_GOIMPORTS"]

/-- The switch of the tidy pass in an environment. -/
def tidySwitch (env : Environment) : Except SettingsFault Bool :=
  let text := env.get "ESGO_GOIMPORTS"
  if text = "" then .ok false
  else match readSwitch? text with
    | some b => .ok b
    | none => .error (.switch text)

/-- The settings in an environment. -/
def ofEnvironment (env : Environment) : Except SettingsFault Settings := do
  let defaults : Settings := {}
  let tidy ← tidySwitch env
  let settings : Settings :=
    { mode := env.get "ESGO_ENV"
      source := env.getOr "ESGO_SOURCE" defaults.source
      dest := env.getOr "ESGO_DEST" defaults.dest
      sink := env.getOr "ESGO_SINK" defaults.sink
      database := env.getOr "ESGO_SQLITE_PATH" defaults.database
      tidy }
  settings.validate
  .ok settings

/-- The variables that a file in a tree assigns, none when the file is missing. -/
def fileVariables (t : FileTree) (name : String) : Except SettingsFault (List (String × String)) :=
  match t.read name with
  | .error fault => if fault.cause = .missing then .ok [] else .error (.file name fault)
  | .ok content => match EnvFile.read content with
    | .error fault => .error (.content name fault)
    | .ok values => .ok values

/-- The environment after loading files, up to the first one that fails, and that failure. -/
def loadFiles (t : FileTree) (env : Environment) : List String → Option SettingsFault × Environment
  | [] => (none, env)
  | name :: names => match fileVariables t name with
    | .error fault => (some fault, env)
    | .ok values => loadFiles t (env.addAll values) names

/-- The files that are loaded: those that are named, or else the usual one. -/
def filesToLoad (names : List String) : List String := if names = [] then [".env"] else names

/-- The settings after loading files into an environment, and the environment. -/
def load (t : FileTree) (env : Environment) (names : List String) :
    Except SettingsFault Settings × Environment :=
  match loadFiles t env (filesToLoad names) with
  | (some fault, env) => (.error fault, env)
  | (none, env) => (ofEnvironment env, env)

end Settings

end Scaffold
