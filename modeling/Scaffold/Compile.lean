import Scaffold.Code.Unit
import Scaffold.Diagnostic
import Scaffold.Log.Record
import Scaffold.Size

/-!
# Compiled units

Compiling a tree gives its unit and its diagnostics, and logs both.  A tidy pass
may run over the unit.  The pass is given as a function, since it knows more of
Go than this library does.  When it refuses a unit, the unit stays as it is and
the refusal is logged.
-/

namespace Scaffold

/-- A pass over a unit: the tidied unit, or why the unit is refused. -/
abbrev Tidy := String → Except String String

/-- The pass that knows units without statements only.  There nothing is printed, so the import is
not used and is dropped.  Every other unit is refused. -/
def Tidy.bare : Tidy := fun code =>
  if code = Code.fileText Code.header then .ok "package main\n" else .error "<goimports>"

/-- A unit with what is known about it. -/
structure Compiled where
  /-- The text of the unit. -/
  code : String
  /-- The constructs that it leaves out. -/
  diagnostics : List Diagnostic
  /-- Whether the tidy pass accepted it. -/
  formatted : Bool
  deriving DecidableEq, Repr

/-- The record of a construct that is left out. -/
def Diagnostic.record (d : Diagnostic) : Log.Record where
  level := .debug
  message := "unsupported construct"
  attributes := [("kind", .text d.kind), ("pos", .text d.message)]

/-- The record of a unit that the tidy pass refuses. -/
def refusalRecord (reason : String) : Log.Record where
  level := .warn
  message := "goimports skipped"
  attributes := [("err", .text reason)]

/-- The record of a compiled unit. -/
def Compiled.record (c : Compiled) : Log.Record where
  level := .debug
  message := "generated unit"
  attributes :=
    [("size", .text (Size.text c.code.utf8ByteSize)), ("diagnostics", .count c.diagnostics.length),
     ("formatted", .flag c.formatted)]

/-- A unit after an optional tidy pass: its text, whether the pass accepted it, and the records. -/
def tidied (tidy : Option Tidy) (code : String) : String × Bool × List Log.Record :=
  match tidy with
  | none => (code, false, [])
  | some pass => match pass code with
    | .ok code => (code, true, [])
    | .error reason => (code, false, [refusalRecord reason])

/-- The unit of a tree after an optional tidy pass, and the records of compiling it. -/
def compileTree (tidy : Option Tidy) (root : Option Node) :
    Except Code.WrongRoot (Compiled × List Log.Record) := do
  let code ← Code.unit root
  let diagnostics := (root.map Node.diagnose).getD []
  let (code, formatted, refusal) := tidied tidy code
  let compiled : Compiled := { code, diagnostics, formatted }
  .ok (compiled, diagnostics.map Diagnostic.record ++ refusal ++ [compiled.record])

end Scaffold
