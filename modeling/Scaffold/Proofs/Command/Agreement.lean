import Scaffold.Command.Run
import Scaffold.Proofs.Files.Writing

/-!
# Agreement of `build` and `print`

Both commands read their flags, compile the document and go on with the unit.
`print` writes it out, and `build` opens a sink and stores it.  So they agree on
everything up to the unit, and `build` touches the file tree only after there is
one.

A command line is given by choices: flags for the tidy pass, which both commands
take, and flags for the sink and the destination, which only `build` takes.

* `build_agrees_print`: when `print` exits with 0, `build` to a file leaves in its
  destination what `print` wrote, or exits with 1 since the destination cannot be
  written.  When `print` exits with 1, `build` exits with 1 and leaves the file
  tree as it was.
-/

namespace Scaffold.Command

/-! ## Command lines -/

/-- The flags with a text. -/
inductive TextFlag where
  | sink
  | dest
  deriving DecidableEq, Repr

/-- The name of a flag. -/
def TextFlag.name : TextFlag → String
  | .sink => "sink"
  | .dest => "o"

/-- A flag on a command line. -/
inductive Choice where
  /-- The tidy pass, turned on or set to a text. -/
  | tidy (text : Option String)
  /-- The kind of sink or the destination. -/
  | set (flag : TextFlag) (value : String)
  deriving DecidableEq, Repr

/-- Whether a choice is about the tidy pass. -/
def Choice.isTidy : Choice → Bool
  | .tidy _ => true
  | .set _ _ => false

/-- The arguments of a choice. -/
def Choice.arguments : Choice → List String
  | .tidy none => ["-goimports"]
  | .tidy (some text) => ["-goimports=" ++ text]
  | .set flag value => ["-" ++ flag.name, value]

/-- The arguments of `build` with choices and a document. -/
def buildLine (choices : List Choice) (source : String) : List String :=
  "build" :: (choices.flatMap Choice.arguments ++ [source])

/-- The arguments of `print` with the same choices for the tidy pass and the same document. -/
def printLine (choices : List Choice) (source : String) : List String :=
  "print" :: ((choices.filter Choice.isTidy).flatMap Choice.arguments ++ [source])

/-- The text that the last choice for a flag gives it, a default when there is none. -/
def chosen (flag : TextFlag) (default : String) (choices : List Choice) : String :=
  choices.foldl (fun value c => match c with
    | .set g text => if g = flag then text else value
    | .tidy _ => value) default

/-! ## Reading command lines -/

/-- What the flags of a command keep of a choice, if its text can be used. -/
def Choice.given? : Choice → Option (String × FlagValue)
  | .tidy none => some ("goimports", .switch true)
  | .tidy (some text) => (readSwitch? text).map fun b => ("goimports", .switch b)
  | .set flag value => some (flag.name, .text value)

/-- Whether a choice is about a flag of a command. -/
def Choice.IsFor (flags : List Flag) : Choice → Prop
  | .tidy _ => ∃ f b, flags.find? (·.name = "goimports") = some f ∧ f.default = .switch b
  | .set flag _ => ∃ f s, flags.find? (·.name = flag.name) = some f ∧ f.default = .text s

theorem Choice.isFor_buildFlags (settings : Settings) (c : Choice) :
    c.IsFor (buildFlags settings) := by
  cases c with
  | tidy => exact ⟨_, _, rfl, rfl⟩
  | set flag => cases flag <;> exact ⟨_, _, rfl, rfl⟩

theorem Choice.isFor_printFlags (settings : Settings) {c : Choice} (h : c.isTidy = true) :
    c.IsFor [tidyFlag settings] := by
  cases c with
  | tidy => exact ⟨_, _, rfl, rfl⟩
  | set => cases h

theorem ofString_tidyText (text : String) :
    Argument.ofString ("-goimports=" ++ text) = .flag "goimports" (some text) := by
  rw [Argument.ofString, String.toList_append]
  change Argument.flag "goimports" (some (String.ofList text.toList)) = _
  rw [String.ofList_toList]

theorem ofString_textFlag (flag : TextFlag) :
    Argument.ofString ("-" ++ flag.name) = .flag flag.name none := by
  cases flag <;> rfl

theorem ofString_operand {source : String} (h : source.toList.head? ≠ some '-') :
    Argument.ofString source = .operand := by
  rw [Argument.ofString]
  split
  all_goals first | rfl | simp_all

/-- A choice whose text can be used is read as what it gives, and any other ends the reading. -/
theorem readArguments_choice {flags : List Flag} {c : Choice} (hfor : c.IsFor flags)
    (given : List (String × FlagValue)) (rest : List String) :
    (∃ g, c.given? = some g ∧ readArguments flags given (c.arguments ++ rest)
      = readArguments flags (given ++ [g]) rest) ∨
    (c.given? = none ∧ ∃ fault, readArguments flags given (c.arguments ++ rest)
      = .error (.fault fault)) := by
  cases c with
  | tidy text =>
    obtain ⟨f, b, hfind, hb⟩ := hfor
    cases text with
    | none =>
      refine .inl ⟨_, rfl, ?_⟩
      change readArguments flags given ("-goimports" :: rest) = _
      rw [readArguments, show Argument.ofString "-goimports" = .flag "goimports" none by rfl]
      simp only [hfind, hb]
    | some text =>
      change (∃ g, _ ∧ readArguments flags given (("-goimports=" ++ text) :: rest) = _) ∨
        _ ∧ ∃ fault, readArguments flags given (("-goimports=" ++ text) :: rest) = _
      rw [readArguments, ofString_tidyText]
      simp only [hfind, hb, Choice.given?]
      cases readSwitch? text with
      | some b => exact .inl ⟨_, rfl, rfl⟩
      | none => exact .inr ⟨rfl, _, rfl⟩
  | set flag value =>
    obtain ⟨f, s, hfind, hs⟩ := hfor
    refine .inl ⟨_, rfl, ?_⟩
    change readArguments flags given (("-" ++ flag.name) :: value :: rest) = _
    rw [readArguments, ofString_textFlag]
    simp only [hfind, hs]

/-- The arguments of a command line are what its choices give and the document, or else they hold
a text that cannot be used. -/
theorem readArguments_choices {flags : List Flag} {choices : List Choice}
    (hfor : ∀ c ∈ choices, c.IsFor flags) {source : String}
    (hsource : source.toList.head? ≠ some '-') (given : List (String × FlagValue)) :
    ((∀ c ∈ choices, c.given?.isSome) ∧
      readArguments flags given (choices.flatMap Choice.arguments ++ [source])
        = .ok ⟨given ++ choices.filterMap Choice.given?, [source]⟩) ∨
    (∃ c ∈ choices, c.given? = none) ∧
      ∃ fault, readArguments flags given (choices.flatMap Choice.arguments ++ [source])
        = .error (.fault fault) := by
  induction choices generalizing given with
  | nil =>
    refine .inl ⟨List.forall_mem_nil _, ?_⟩
    change readArguments flags given [source] = _
    rw [readArguments, ofString_operand hsource]
    simp
  | cons c choices ih =>
    rw [List.flatMap_cons, List.append_assoc]
    obtain ⟨g, hg, hread⟩ | ⟨hnone, fault, hread⟩ := readArguments_choice
      (hfor c List.mem_cons_self) given (choices.flatMap Choice.arguments ++ [source])
    · rw [hread]
      obtain ⟨hall, hrest⟩ | ⟨⟨d, hd, hnone⟩, hrest⟩ :=
        ih (fun d hd => hfor d (List.mem_cons_of_mem c hd)) (given ++ [g])
      · refine .inl ⟨?_, ?_⟩
        · exact List.forall_mem_cons.2 ⟨by rw [hg]; rfl, hall⟩
        · rw [hrest, List.filterMap_cons_some hg, List.append_assoc]
          rfl
      · exact .inr ⟨⟨d, List.mem_cons_of_mem c hd, hnone⟩, hrest⟩
    · exact .inr ⟨⟨c, List.mem_cons_self, hnone⟩, fault, hread⟩

/-- Only choices for the tidy pass set a switch. -/
theorem switch_filter_isTidy (choices : List Choice) (operands : List String) (name : String)
    (b : Bool) :
    (⟨(choices.filter Choice.isTidy).filterMap Choice.given?, operands⟩ : Arguments).switch name b
      = (⟨choices.filterMap Choice.given?, operands⟩ : Arguments).switch name b := by
  simp only [Arguments.switch]
  induction choices generalizing b with
  | nil => rfl
  | cons c choices ih =>
    cases c with
    | tidy text =>
      rw [List.filter_cons_of_pos rfl]
      cases hg : (Choice.tidy text).given? with
      | none => rw [List.filterMap_cons_none hg, List.filterMap_cons_none hg, ih]
      | some g => rw [List.filterMap_cons_some hg, List.filterMap_cons_some hg, List.foldl_cons,
          List.foldl_cons, ih]
    | set flag value => exact ih b

/-- What a choice for the tidy pass gives is a switch. -/
theorem Choice.given?_tidy (text : Option String) :
    (tidy text).given? = none ∨ ∃ b, (tidy text).given? = some ("goimports", .switch b) := by
  cases text with
  | none => exact .inr ⟨true, rfl⟩
  | some text =>
    rw [given?]
    cases readSwitch? text with
    | none => exact .inl rfl
    | some b => exact .inr ⟨b, rfl⟩

theorem TextFlag.name_inj {f g : TextFlag} : f.name = g.name ↔ f = g := by
  cases f <;> cases g <;> decide

/-- A flag with a text holds what the last choice for it says. -/
theorem text_choices (flag : TextFlag) (choices : List Choice) (operands : List String)
    (value : String) :
    (⟨choices.filterMap Choice.given?, operands⟩ : Arguments).text flag.name value
      = chosen flag value choices := by
  simp only [Arguments.text, chosen]
  induction choices generalizing value with
  | nil => rfl
  | cons c choices ih =>
    rw [List.foldl_cons, ← ih]
    cases c with
    | tidy text =>
      obtain hg | ⟨b, hg⟩ := Choice.given?_tidy text
      · rw [List.filterMap_cons_none hg]
      · rw [List.filterMap_cons_some hg, List.foldl_cons]
    | set g text =>
      have hg : (Choice.set g text).given? = some (g.name, .text text) := rfl
      rw [List.filterMap_cons_some hg, List.foldl_cons]
      simp only [TextFlag.name_inj]

/-! ## Runs -/

/-- A document compiles or not whatever comes next.  When it does not, the run ends with 1 and the
file tree stays. -/
theorem withUnit_cases (tools : Tools) (settings : Settings) (files : FileTree) (tidy : Bool)
    (source : String) :
    (∃ o : Outcome, o.exit = 1 ∧ o.files = files ∧
      ∀ next, withUnit tools settings files tidy source next = o) ∨
    ∃ compiled logged, ∀ next,
      withUnit tools settings files tidy source next = (next compiled).after logged := by
  cases hcompile : files.compile (if tidy then some tools.tidy else none) source with
  | ok result =>
    obtain ⟨compiled, records⟩ := result
    exact .inr ⟨compiled, _, fun next => by rw [withUnit, hcompile]⟩
  | error fault =>
    refine .inl ?_
    cases fault with
    | file fault => exact ⟨_, rfl, rfl, fun next => by rw [withUnit, hcompile]⟩
    | tree path fault => exact ⟨_, rfl, rfl, fun next => by rw [withUnit, hcompile]⟩
    | root path wrong => exact ⟨_, rfl, rfl, fun next => by rw [withUnit, hcompile]⟩

/-- A file sink stores a unit by writing it to its destination. -/
theorem store_file (files : FileTree) (stamp : Stamp) (dest code : String) :
    Workshop.store { files, sinks := [.file] } 0 stamp dest code =
      match files.writeUnit dest code with
      | (none, files) => (none, { files, sinks := [.file] }, [wroteRecord dest code])
      | (some fault, files) => (some (.write (.file fault)), { files, sinks := [.file] }, []) := by
  rcases hwrite : files.writeUnit dest code with ⟨_ | fault, after⟩ <;>
    simp [Workshop.store, Outlet.store, Workshop.outlet, Workshop.write, Workshop.close, hwrite]

theorem openSink_file (files : FileTree) {kind : String} (hkind : kind = "" ∨ kind = "file")
    (name : String) :
    Workshop.openSink { files } kind name = ⟨.ok 0, [], { files, sinks := [.file] }⟩ := by
  rw [Workshop.openSink, if_pos hkind]
  rfl

/-- A unit that can be written to its destination is stored there. -/
theorem storeUnit_of_written (tools : Tools) (settings : Settings) {files written : FileTree}
    {kind dest code : String} (hkind : kind = "" ∨ kind = "file")
    (hwrite : files.writeUnit dest code = (none, written)) :
    (storeUnit tools settings files kind dest code).exit = 0 ∧
      (storeUnit tools settings files kind dest code).files = written := by
  rw [storeUnit, openSink_file files hkind]
  dsimp only
  rw [store_file, hwrite]
  exact ⟨rfl, rfl⟩

/-- A unit that cannot be written to its destination ends the run with the reason. -/
theorem storeUnit_of_unwritten (tools : Tools) (settings : Settings) {files after : FileTree}
    {kind dest code : String} {fault : FileFault} (hkind : kind = "" ∨ kind = "file")
    (hwrite : files.writeUnit dest code = (some fault, after)) :
    storeUnit tools settings files kind dest code = (failure after fault.message).after "" := by
  rw [storeUnit, openSink_file files hkind]
  dsimp only
  rw [store_file, hwrite]
  rfl

/-- The tidy switch that choices make. -/
def chosenTidy (settings : Settings) (choices : List Choice) : Bool :=
  (⟨choices.filterMap Choice.given?, []⟩ : Arguments).switch "goimports" settings.tidy

/-- `print` compiles the document and writes the unit, if its switches can be read. -/
theorem print_line (tools : Tools) (settings : Settings) (files : FileTree) (choices : List Choice)
    {source : String} (hsource : source.toList.head? ≠ some '-') :
    let printed := print tools settings files
      ((choices.filter Choice.isTidy).flatMap Choice.arguments ++ [source])
    ((∀ c ∈ choices, c.given?.isSome) ∧
      printed = withUnit tools settings files (chosenTidy settings choices) source
        fun compiled => { exit := 0, output := compiled.code, files }) ∨
    printed.exit = 2 := by
  intro printed
  have hfor : ∀ c ∈ choices.filter Choice.isTidy, c.IsFor [tidyFlag settings] := fun c hc =>
    Choice.isFor_printFlags settings (List.mem_filter.1 hc).2
  obtain ⟨hall, hread⟩ | ⟨-, fault, hread⟩ := readArguments_choices hfor hsource []
  · refine .inl ⟨fun c hc => ?_, ?_⟩
    · cases c with
      | tidy text => exact hall _ (List.mem_filter.2 ⟨hc, rfl⟩)
      | set flag value => rfl
    · simp only [printed, print, hread, List.nil_append, switch_filter_isTidy]
      rfl
  · refine .inr ?_
    simp only [printed, print, hread]
    rfl

/-- `build` compiles the document and stores the unit, if its flags can be read. -/
theorem build_line (tools : Tools) (settings : Settings) (files : FileTree) {choices : List Choice}
    (hall : ∀ c ∈ choices, c.given?.isSome) {source : String}
    (hsource : source.toList.head? ≠ some '-') :
    build tools settings files (choices.flatMap Choice.arguments ++ [source])
      = withUnit tools settings files (chosenTidy settings choices) source fun compiled =>
          storeUnit tools settings files (chosen .sink settings.sink choices)
            (chosen .dest settings.dest choices) compiled.code := by
  have hfor : ∀ c ∈ choices, c.IsFor (buildFlags settings) := fun c _ =>
    Choice.isFor_buildFlags settings c
  obtain ⟨-, hread⟩ | ⟨⟨c, hc, hnone⟩, -⟩ := readArguments_choices hfor hsource []
  · simp only [build, hread, List.nil_append, ← text_choices _ choices [source]]
    rfl
  · have hsome := hall c hc
    rw [hnone] at hsome
    cases hsome

/-- `build` and `print` agree.  When `print` writes a unit, a `build` to a file leaves the unit in
its destination, unless it cannot be written.  When `print` fails, `build` fails too, whatever its
sink is, and leaves the file tree as it was. -/
theorem build_agrees_print (tools : Tools) (env : Environment) (files : FileTree)
    (choices : List Choice) (source : String) (hsource : source.toList.head? ≠ some '-') :
    let printed := run tools env files (printLine choices source)
    let built := run tools env files (buildLine choices source)
    (printed.exit = 0 → ∃ settings, (Settings.load files env []).1 = .ok settings ∧
      (chosen .sink settings.sink choices ∈ ["", "file"] →
        (built.exit = 0 ∧
          built.files.read (chosen .dest settings.dest choices) = .ok printed.output) ∨
        (built.exit = 1 ∧ ∃ fault logged,
          (files.writeUnit (chosen .dest settings.dest choices) printed.output).1 = some fault ∧
          built.errors = logged ++ fault.message ++ "\n"))) ∧
    (printed.exit = 1 → built.exit = 1 ∧ built.files = files) := by
  intro printed built
  simp only [printed, built, printLine, buildLine, run]
  cases hload : (Settings.load files env []).1 with
  | error fault => exact ⟨fun h => absurd h Nat.one_ne_zero, fun _ => ⟨rfl, rfl⟩⟩
  | ok settings =>
    dsimp only
    obtain ⟨hall, hprint⟩ | hstopped := print_line tools settings files choices hsource
    · rw [hprint, build_line tools settings files hall hsource]
      -- Both commands compile the same document, so one case split serves both.
      obtain ⟨o, hexit, hfiles, hunit⟩ | ⟨compiled, logged, hunit⟩ := withUnit_cases tools settings
        files (chosenTidy settings choices) source
      · rw [hunit, hunit]
        exact ⟨fun h => absurd (hexit.symm.trans h) Nat.one_ne_zero, fun _ => ⟨hexit, hfiles⟩⟩
      · rw [hunit, hunit]
        refine ⟨fun _ => ⟨settings, rfl, fun hsink => ?_⟩, fun h => absurd h Nat.zero_ne_one⟩
        have hkind : chosen .sink settings.sink choices = "" ∨
            chosen .sink settings.sink choices = "file" := by
          simpa using hsink
        rcases hwrite : files.writeUnit (chosen .dest settings.dest choices) compiled.code
          with ⟨_ | fault, after⟩
        · obtain ⟨hexit, hfiles⟩ := storeUnit_of_written tools settings hkind hwrite
          refine .inl ⟨hexit, ?_⟩
          change FileTree.read (storeUnit ..).files _ = .ok compiled.code
          rw [hfiles]
          exact FileTree.read_writeUnit hwrite
        · rw [storeUnit_of_unwritten tools settings hkind hwrite]
          refine .inr ⟨rfl, fault, logged, ?_, ?_⟩
          · change (files.writeUnit _ compiled.code).1 = _
            rw [hwrite]
          · simp [Outcome.after, failure, String.append_assoc]
    · -- A switch that cannot be read ends `print` with 2.
      rw [hstopped]
      exact ⟨fun h => absurd h (by decide), fun h => absurd h (by decide)⟩

/-- Both halves: a program is tidied and built below a new directory, and a document that is no
program is not built to a database. -/
theorem build_agrees_print_documents :
    let tools : Tools := ⟨Tidy.bare, ⟨"u", 0⟩⟩
    let files := FileTree.ofFiles ["home"]
      [("a.json", "\x7b\"type\":\"Program\"\x7d"), ("b.json", "\x7b\"type\":\"Identifier\"\x7d")]
    let toFile := [Choice.tidy none, .set .dest "out/a.go"]
    let toDatabase := [Choice.set .sink "sqlite", .tidy (some "0")]
    ("a.json".toList.head? ≠ some '-' ∧
      (run tools {} files (printLine toFile "a.json")).exit = 0 ∧
      (run tools {} files (buildLine toFile "a.json")).exit = 0 ∧
      (run tools {} files (buildLine toFile "a.json")).files.read "out/a.go"
        = .ok (run tools {} files (printLine toFile "a.json")).output) ∧
    ("b.json".toList.head? ≠ some '-' ∧
      (run tools {} files (printLine toDatabase "b.json")).exit = 1 ∧
      (run tools {} files (buildLine toDatabase "b.json")).exit = 1 ∧
      (run tools {} files (buildLine toDatabase "b.json")).files = files) := by
  intro tools files toFile toDatabase
  have hload : (Settings.load files {} []).1 = .ok {} := by decide +kernel
  have hprinted : (run tools {} files (printLine toFile "a.json")).exit = 0 := by decide +kernel
  have hbuilt : (run tools {} files (buildLine toFile "a.json")).exit = 0 := by decide +kernel
  have hrefused : (run tools {} files (printLine toDatabase "b.json")).exit = 1 := by
    decide +kernel
  refine ⟨⟨by decide, hprinted, ?_⟩, ⟨by decide, hrefused, ?_⟩⟩
  · obtain ⟨settings, hsettings, hagree⟩ :=
      (build_agrees_print tools {} files toFile "a.json" (by decide)).1 hprinted
    rw [hload] at hsettings
    cases hsettings
    obtain hread | ⟨hexit, -⟩ := hagree (by decide)
    · exact hread
    · rw [hbuilt] at hexit
      cases hexit
  · exact (build_agrees_print tools {} files toDatabase "b.json" (by decide)).2 hrefused

end Scaffold.Command
