import Scaffold.Tree.Traversal

/-!
# Outlines

The outline of a tree has one entry for each node, in source order: two spaces
for each level, the type name, a detail when there is one, and the start
position when the node has one.  The texts of the source are copied as they are.

An outliner writes outlines one after the other.  It keeps the level it is at and
the text it has written.  It goes one level down for the children of a node and
comes back up after them, and it starts every outline with an empty text at the
top level.
-/

namespace Scaffold

/-- The detail of a node: the part of it that is worth a look. -/
def Node.detail : Node → String
  | .program _ sourceType _ => sourceType
  | .variableDeclaration keyword _ _ => keyword
  | .identifier i => i.name
  | .literal value raw _ =>
    if raw ≠ "" then raw
    else match value with
      | .string s => Text.quote s
      | v => v.outlineText
  | .binaryExpression operator .. | .logicalExpression operator ..
  | .assignmentExpression operator .. | .unaryExpression operator .. => operator
  | .updateExpression operator isPrefix .. =>
    operator ++ (if isPrefix then " prefix" else " postfix")
  | .memberExpression _ _ computed _ => if computed then "computed" else ""
  | .unknown .. => "(unsupported)"
  | _ => ""

/-- The entry of a node at a level of the tree. -/
def Node.entry (n : Node) (depth : Nat) : String :=
  String.ofList (List.replicate (2 * depth) ' ') ++ n.kindName
    ++ (if n.detail = "" then "" else " " ++ n.detail)
    ++ (if n.span.isZero then ""
        else " @" ++ toString n.span.start.line.toInt ++ ":" ++ toString n.span.start.column.toInt)
    ++ "\n"

/-- A writer of outlines. -/
structure Outliner where
  /-- The level of the node that is written next. -/
  level : Nat := 0
  /-- What is written so far. -/
  text : String := ""
  deriving DecidableEq, Repr

mutual

/-- Writes the entry of a node, and the entries of its children one level deeper. -/
def Outliner.write (o : Outliner) : Traversal → Outliner
  | .visit n children =>
    let inner := Outliner.writeAll
      { o with text := o.text ++ n.entry o.level, level := o.level + 1 } children
    { inner with level := inner.level - 1 }

/-- Writes the entries of several traversals. -/
def Outliner.writeAll (o : Outliner) : List Traversal → Outliner
  | [] => o
  | t :: ts => Outliner.writeAll (o.write t) ts

end

/-- Writes the outline of a tree from the start, nothing when there is none. -/
def Outliner.outline (o : Outliner) (root : Option Node) : Outliner :=
  let fresh := { o with text := "", level := 0 }
  match root with
  | none => fresh
  | some n => fresh.write n.traversal

/-- The outline of a tree, empty when there is none. -/
def outline (root : Option Node) : String := (({} : Outliner).outline root).text

end Scaffold
