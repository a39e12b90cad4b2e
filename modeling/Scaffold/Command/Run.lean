import Scaffold.Command.Document
import Scaffold.Command.Flag
import Scaffold.Log.Writer
import Scaffold.Outline
import Scaffold.Settings
import Scaffold.Store.Outlet

/-!
# The command line

There are three commands.  `build` compiles a document and stores the unit in a
sink, `print` writes the unit to the standard output, and `tree` writes the
outlines of documents.  Settings are loaded before any of them.  Log records and
messages go to the standard error.

A run is a function from the file tree, the environment and the arguments to
what it writes, its exit code and the file tree it leaves.  The document is
compiled before a sink is opened, so a run that cannot compile leaves the file
tree alone.
-/

namespace Scaffold.Command

/-- What a run leaves behind. -/
structure Outcome where
  /-- The exit code. -/
  exit : Nat
  /-- What was written to the standard output. -/
  output : String := ""
  /-- What was written to the standard error. -/
  errors : String := ""
  /-- The file tree after the run. -/
  files : FileTree
  deriving DecidableEq, Repr

/-- What a run is given from outside. -/
structure Tools where
  /-- The tidy pass. -/
  tidy : Tidy
  /-- The identity of the unit that the run may store. -/
  stamp : Stamp

/-- The usage of the program. -/
def usage : String :=
  "usage:\n"
    ++ "  esgo build [-o <dest.go>] [-sink file|sqlite] [-goimports] [source.json]\n"
    ++ "  esgo print [-goimports] <source.json>\n"
    ++ "  esgo tree <source.json>...\n"

/-- A run that ends with a message. -/
def failure (files : FileTree) (message : String) : Outcome where
  exit := 1
  errors := message ++ "\n"
  files := files

/-- A run that its flags end. -/
def stopped (files : FileTree) (command : String) (flags : List Flag) : FlagStop → Outcome
  | .help => { exit := 0, errors := usageOf command flags, files }
  | .fault fault =>
    { exit := 2, errors := fault.message ++ "\n" ++ usageOf command flags, files }

/-- A run that writes more to the standard error at its start. -/
def Outcome.after (errors : String) (o : Outcome) : Outcome :=
  { o with errors := errors ++ o.errors }

/-! ## Compiling -/

/-- The record of a document whose root is not a program. -/
def wrongRootRecord (source : String) (fault : DocumentFault) : Log.Record where
  level := .error
  message := "Wrong code!"
  attributes := [("source", .text source), ("err", .text fault.message)]

/-- The record of a construct that the unit of a document leaves out. -/
def droppedRecord (source : String) (d : Diagnostic) : Log.Record where
  level := .warn
  message := "unsupported construct dropped"
  attributes := [("source", .text source), ("at", .text d.message)]

/-- The run that compiles a document and goes on with the unit, or ends when it cannot compile. -/
def withUnit (tools : Tools) (settings : Settings) (files : FileTree) (tidy : Bool)
    (source : String) (next : Compiled → Outcome) : Outcome :=
  let mode := Log.Mode.ofName settings.mode
  match files.compile (if tidy then some tools.tidy else none) source with
  | .error fault => match fault with
    | .root .. =>
      { exit := 1, errors := (wrongRootRecord source fault).line mode, files }
    | _ => failure files fault.message
  | .ok (compiled, records) =>
    let dropped := compiled.diagnostics.map (droppedRecord source)
    (next compiled).after (Log.lines mode (records ++ dropped))

/-! ## Commands -/

/-- The switch of the tidy pass. -/
def tidyFlag (settings : Settings) : Flag where
  name := "goimports"
  usage := "run goimports over the generated code"
  default := .switch settings.tidy

/-- The flags of `build`. -/
def buildFlags (settings : Settings) : List Flag :=
  [tidyFlag settings,
   { name := "o"
     usage := "destination of the generated Go file"
     default := .text settings.dest },
   { name := "sink"
     usage := "where to store the output: file or sqlite"
     default := .text settings.sink }]

/-- The run that stores a unit in a sink of a kind. -/
def storeUnit (tools : Tools) (settings : Settings) (files : FileTree) (kind dest code : String) :
    Outcome :=
  let opened := Workshop.openSink { files } kind settings.database
  match opened.outcome with
  | .error fault => failure opened.after.files fault.message
  | .ok sink =>
    let (fault, after, records) := opened.after.store sink tools.stamp dest code
    let logged := Log.lines (.ofName settings.mode) records
    match fault with
    | none => { exit := 0, errors := logged, files := after.files }
    | some fault => (failure after.files (fault.message SinkFault.message)).after logged

/-- `build`: compile a document and store its unit. -/
def build (tools : Tools) (settings : Settings) (files : FileTree) (args : List String) : Outcome :=
  let flags := buildFlags settings
  match readArguments flags [] args with
  | .error stop => stopped files "build" flags stop
  | .ok arguments =>
    let source := arguments.operands.headD settings.source
    let tidy := arguments.switch "goimports" settings.tidy
    withUnit tools settings files tidy source fun compiled =>
      storeUnit tools settings files (arguments.text "sink" settings.sink)
        (arguments.text "o" settings.dest) compiled.code

/-- What is said when a command lacks its document. -/
def sourceRequired : String := "source file is required"

/-- `print`: compile a document and write its unit. -/
def print (tools : Tools) (settings : Settings) (files : FileTree) (args : List String) : Outcome :=
  let flags := [tidyFlag settings]
  match readArguments flags [] args with
  | .error stop => stopped files "print" flags stop
  | .ok arguments => match arguments.operands with
    | [] => failure files sourceRequired
    | source :: _ =>
      let tidy := arguments.switch "goimports" settings.tidy
      withUnit tools settings files tidy source fun compiled =>
        { exit := 0, output := compiled.code, files }

/-- The outlines of documents, up to the first one that cannot be read. -/
def outlines (files : FileTree) : List String → Outcome
  | [] => { exit := 0, files }
  | path :: paths => match files.parse path with
    | .error fault => failure files fault.message
    | .ok n =>
      let rest := outlines files paths
      { rest with output := outline (some n) ++ rest.output }

/-- `tree`: write the outlines of documents. -/
def tree (files : FileTree) (args : List String) : Outcome :=
  match readArguments [] [] args with
  | .error stop => stopped files "tree" [] stop
  | .ok arguments =>
    if arguments.operands = [] then failure files sourceRequired
    else outlines files arguments.operands

/-- A run of the program. -/
def run (tools : Tools) (env : Environment) (files : FileTree) : List String → Outcome
  | [] => { exit := 1, errors := usage, files }
  | command :: args => match (Settings.load files env []).1 with
    | .error fault => failure files fault.message
    | .ok settings => match command with
      | "build" => build tools settings files args
      | "print" => print tools settings files args
      | "tree" => tree files args
      | _ => { exit := 1, errors := usage, files }

end Scaffold.Command
