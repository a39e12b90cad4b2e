import Scaffold.Code.Statement

/-!
# Units

A unit is the Go file of a program: a fixed header and the lines of the
statements, each line ended by a newline.
-/

namespace Scaffold.Code

/-- The two lines at the top of every unit. -/
def header : List String := ["package main", "import \"fmt\""]

/-- Why a tree has no unit: its root is not a program.  A missing root has no type name. -/
structure WrongRoot where
  /-- The type name of the root. -/
  found : Option String
  deriving DecidableEq, Repr

/-- What is said about a wrong root. -/
def WrongRoot.message (w : WrongRoot) : String :=
  "wrong code: root node is " ++ w.found.getD "<nil>" ++ ", want " ++ Kind.program.name

/-- Texts as lines of a file. -/
def fileText (lines : List String) : String := String.join (lines.map (· ++ "\n"))

/-- The unit of a tree. -/
def unit : Option Node → Except WrongRoot String
  | some (.program statements _ _) =>
    .ok (fileText (header ++ (block {} statements).map Line.text))
  | some n => .error ⟨some n.kindName⟩
  | none => .error ⟨none⟩

end Scaffold.Code
