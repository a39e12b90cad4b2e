import Scaffold.Text.Parts

/-!
# Types and bindings guessed from spelling

The type of a declared name is guessed from its spelling.  A name with an
underscore is cut into segments.  The first segment is the name.  If the second
is `arr` or `array`, the third is a length and the fourth an element type.
Otherwise the second segment is the type.  Further segments are ignored, and
missing ones are empty.  A name without an underscore is kept whole: its type is
`int` when it starts with `int`, none for `main`, and `string` otherwise.

The keyword of a declaration says whether the declared names may change.
-/

namespace Scaffold

/-- A name with the type guessed for it. -/
structure Inferred where
  /-- The name. -/
  name : String
  /-- The Go type, empty when there is none. -/
  type : String
  deriving DecidableEq, Repr

/-- The segment at a place, empty when there is none. -/
def segment (segments : List (List Char)) (i : Nat) : String :=
  String.ofList (segments.getD i [])

/-- The name and type of an identifier. -/
def infer (name : String) : Inferred :=
  if '_' ∈ name.toList then
    let segments := Text.splitOn '_' name.toList
    let second := segment segments 1
    if second = "arr" ∨ second = "array" then
      ⟨segment segments 0, "[" ++ segment segments 2 ++ "]" ++ segment segments 3⟩
    else ⟨segment segments 0, second⟩
  else if "int".toList.isPrefixOf name.toList then ⟨name, "int"⟩
  else if name = "main" then ⟨name, ""⟩
  else ⟨name, "string"⟩

/-- Whether a Go type is an array or slice type. -/
def isArrayType (type : String) : Bool := type.toList.head? == some '['

/-- Whether a declared name may change. -/
inductive Binding where
  | reassignable
  | fixed
  deriving DecidableEq, Repr

namespace Binding

/-- The binding that a declaration keyword asks for. -/
def ofKeyword (keyword : String) : Binding := if keyword = "const" then .fixed else .reassignable

/-- The Go keyword of a binding. -/
def keyword : Binding → String
  | .reassignable => "var"
  | .fixed => "const"

/-- The name of a binding. -/
def name : Binding → String
  | .reassignable => "reassignable"
  | .fixed => "fixed"

end Binding

end Scaffold
