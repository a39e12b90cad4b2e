import Scaffold.Code.Expression
import Scaffold.Naming

/-!
# Text of declarations

Each declarator of a declaration is written by itself, in one of five forms:
a composite value for an array, a bare declaration when there is no initial
value, a short declaration when the name may change, an import for a required
module, and a constant otherwise.  A declarator whose target is not an
identifier is written as nothing.

A short declaration and an import keep the whole identifier.  The other forms
use the name and type that its spelling gives.
-/

namespace Scaffold.Code

/-- What a node passes down to the statements below it. -/
structure Context where
  /-- How many levels of indentation a statement has. -/
  depth : Nat := 0
  /-- The binding of the nearest declaration. -/
  binding : Binding := .reassignable
  deriving DecidableEq, Repr

/-- The context one level deeper. -/
def Context.nest (ctx : Context) : Context := { ctx with depth := ctx.depth + 1 }

/-- The module path of a call `require("path")`. -/
def requiredPath? : Node → Option String
  | .callExpression (some (.identifier callee)) [some (.literal (.string path) _ _)] _ =>
    if callee.name = "require" then some path else none
  | _ => none

/-- The type of a composite value for a name: its array type, or a slice of its type. -/
def compositeType (type : String) : String := if isArrayType type then type else "[]" ++ type

/-- The text of a declarator, empty when it cannot be written. -/
def declarator (ctx : Context) (d : Declarator Node) : String :=
  match d.id with
  | some (.identifier target) =>
    let inferred := infer target.name
    match d.init with
    | none => Text.joinNonEmpty [ctx.binding.keyword, inferred.name, inferred.type]
    | some init =>
      match init, ctx.binding, requiredPath? init with
      | .arrayExpression .., _, _ =>
        inferred.name ++ " := " ++ compositeType inferred.type ++ expression .free init
      | _, .reassignable, _ => target.name ++ " := " ++ expression .free init
      | _, .fixed, some path => "import " ++ target.name ++ " " ++ Text.quote path
      | _, .fixed, none =>
        Text.joinNonEmpty
          [ctx.binding.keyword, inferred.name, inferred.type, "=", expression .free init]
  | _ => ""

/-- The texts of the declarators of a declaration with a keyword, without the empty ones. -/
def declaration (ctx : Context) (keyword : String) (ds : List (Declarator Node)) : List String :=
  (ds.map (declarator { ctx with binding := .ofKeyword keyword })).filter (· ≠ "")

/-- Declarators are written one by one. -/
theorem declaration_append (ctx : Context) (keyword : String) (ds es : List (Declarator Node)) :
    declaration ctx keyword (ds ++ es)
      = declaration ctx keyword ds ++ declaration ctx keyword es := by
  rw [declaration, List.map_append, List.filter_append, declaration, declaration]

end Scaffold.Code
