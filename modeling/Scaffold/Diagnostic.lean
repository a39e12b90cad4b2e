import Scaffold.Tree.Traversal

/-!
# Diagnostics

A diagnostic reports a construct that a unit leaves out.  The constructs of a
tree are reported in source order, and nothing below a reported one is looked
at.  A node without a position takes the position of its nearest ancestor that
has one.
-/

namespace Scaffold

/-- A construct that is written as nothing. -/
structure Diagnostic where
  /-- What it is. -/
  kind : String
  /-- Where it stands. -/
  span : Span
  deriving DecidableEq, Repr

/-- What is said about a construct. -/
def Diagnostic.message (d : Diagnostic) : String :=
  let text := "unsupported construct " ++ d.kind
  if d.span.isZero then text
  else toString d.span.start.line.toInt ++ ":" ++ toString d.span.start.column.toInt ++ ": " ++ text

/-- What an unsupported construct is called.  A unary operation is named with its operator. -/
def Node.constructName (n : Node) : String :=
  match n with
  | .unaryExpression operator .. => n.kindName ++ "(" ++ operator ++ ")"
  | _ => n.kindName

/-- The span of a node, or else that of its nearest ancestor. -/
def Node.spanWithin (n : Node) (inherited : Span) : Span :=
  if n.span.isZero then inherited else n.span

mutual

/-- The diagnostics of a traversal below nodes whose nearest span is `inherited`. -/
def Traversal.diagnose (inherited : Span) : Traversal → List Diagnostic
  | .visit n children =>
    let span := n.spanWithin inherited
    if n.isUnsupported then [⟨n.constructName, span⟩] else Traversal.diagnoseAll span children

/-- The diagnostics of several traversals. -/
def Traversal.diagnoseAll (inherited : Span) : List Traversal → List Diagnostic
  | [] => []
  | t :: ts => t.diagnose inherited ++ Traversal.diagnoseAll inherited ts

end

/-- The diagnostics of a tree. -/
def Node.diagnose (n : Node) : List Diagnostic := n.traversal.diagnose {}

end Scaffold
