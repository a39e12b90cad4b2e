import Scaffold.Compile
import Scaffold.Files.Tree
import Scaffold.Tree.Decode

/-!
# Documents in a file tree

Reading the syntax tree of a document at a path, and compiling it.
-/

namespace Scaffold

/-- Why a document at a path cannot be compiled. -/
inductive DocumentFault where
  /-- The file cannot be read. -/
  | file (fault : FileFault)
  /-- The document is not a syntax tree. -/
  | tree (path : String) (fault : Fault)
  /-- The root of the tree is not a program. -/
  | root (path : String) (wrong : Code.WrongRoot)
  deriving DecidableEq, Repr

/-- What is said about a fault. -/
def DocumentFault.message : DocumentFault → String
  | .file fault => fault.message
  | .tree path fault => fault.messageAt path
  | .root path wrong => path ++ ": " ++ wrong.message

/-- The syntax tree of a document at a path, or what is said about its fault. -/
def Node.parseAt (path document : String) : Except String Node :=
  (Node.parse document).mapError (Fault.messageAt path)

/-- The syntax tree of the document at a path. -/
def FileTree.parse (t : FileTree) (path : String) : Except DocumentFault Node :=
  match t.read path with
  | .error fault => .error (.file fault)
  | .ok document => match Node.parse document with
    | .error fault => .error (.tree path fault)
    | .ok n => .ok n

/-- The unit of the document at a path, and the records of compiling it. -/
def FileTree.compile (t : FileTree) (tidy : Option Tidy) (path : String) :
    Except DocumentFault (Compiled × List Log.Record) :=
  match t.parse path with
  | .error fault => .error fault
  | .ok n => match compileTree tidy (some n) with
    | .error wrong => .error (.root path wrong)
    | .ok result => .ok result

end Scaffold
