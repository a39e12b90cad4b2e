import Scaffold.Tree.Node

/-!
# Fields of node objects

A node of a syntax tree is written as a JSON object.  One table of fields serves
the nodes of all types: it gives each field its key and the shape that its value
has to have, whether or not the type of the node uses the field.  A null is
accepted for every field.

A span is an object with a `start` and an `end`, each with a `line` and a
`column`.  Their keys are compared without regard to the case of ASCII letters.
A key has to begin the name of the field, and to take as many characters in the
document as the name has.  So a key without escapes has to be the whole name,
and one with escapes may be shorter.

A line or column is written with at most nineteen digits and is taken modulo
`2 ^ 64` as a signed number.
-/

namespace Scaffold

/-- The fields of a node object. -/
inductive Field where
  | type
  | loc
  | body
  | sourceType
  | expression
  | argument
  | arguments
  | declarations
  | kind
  | id
  | init
  | test
  | consequent
  | alternate
  | update
  | params
  | name
  | value
  | raw
  | operator
  | left
  | right
  | object
  | property
  | computed
  | callee
  | elements
  | isPrefix
  deriving DecidableEq, Repr

/-- What the value of a field has to be, unless it is null. -/
inductive Shape where
  /-- A string. -/
  | text
  /-- A boolean. -/
  | flag
  /-- An array. -/
  | list
  /-- A span. -/
  | location
  /-- Any value. -/
  | any
  deriving DecidableEq, Repr

namespace Field

/-- The key of a field. -/
def key : Field → String
  | .type => "type"
  | .loc => "loc"
  | .body => "body"
  | .sourceType => "sourceType"
  | .expression => "expression"
  | .argument => "argument"
  | .arguments => "arguments"
  | .declarations => "declarations"
  | .kind => "kind"
  | .id => "id"
  | .init => "init"
  | .test => "test"
  | .consequent => "consequent"
  | .alternate => "alternate"
  | .update => "update"
  | .params => "params"
  | .name => "name"
  | .value => "value"
  | .raw => "raw"
  | .operator => "operator"
  | .left => "left"
  | .right => "right"
  | .object => "object"
  | .property => "property"
  | .computed => "computed"
  | .callee => "callee"
  | .elements => "elements"
  | .isPrefix => "prefix"

/-- All fields. -/
def all : List Field :=
  [.type, .loc, .body, .sourceType, .expression, .argument, .arguments, .declarations, .kind, .id,
   .init, .test, .consequent, .alternate, .update, .params, .name, .value, .raw, .operator, .left,
   .right, .object, .property, .computed, .callee, .elements, .isPrefix]

/-- The field that a key names.  The source type may also be written in lower case. -/
def ofKey? (key : String) : Option Field :=
  if key = "sourcetype" then some .sourceType else all.find? (·.key == key)

/-- The shape of a field. -/
def shape : Field → Shape
  | .type | .sourceType | .kind | .name | .raw | .operator => .text
  | .computed | .isPrefix => .flag
  | .arguments | .declarations | .params | .elements => .list
  | .loc => .location
  | _ => .any

end Field

/-! ## Spans -/

/-- The greatest number of digits of a line or column. -/
def Position.digitLimit : Nat := 19

/-- The line or column that a numeral denotes. -/
def Position.ofNumeral? (n : Numeral) : Option Int64 :=
  if n.plain ∧ n.coefficient < Nat.pow 10 Position.digitLimit then
    some (Int64.ofInt (if n.negative then -n.coefficient else n.coefficient))
  else none

/-- Whether a key names a field of a span or position, whose name is in lower case. -/
def Json.Key.names (key : Json.Key) (field : String) : Bool :=
  (key.text.toList.map Char.toLower).isPrefixOf field.toList
    && field.toList.length ≤ key.text.toList.length + key.surplus

/-- A position with the members of an object set on it, one after the other. -/
def Position.set? (p : Position) : List (Json.Key × Json) → Option Position
  | [] => some p
  | (key, value) :: members =>
    if key.names "line" then match value with
      | .null => p.set? members
      | .number n => do
        let line ← Position.ofNumeral? n
        Position.set? { p with line } members
      | _ => none
    else if key.names "column" then match value with
      | .null => p.set? members
      | .number n => do
        let column ← Position.ofNumeral? n
        Position.set? { p with column } members
      | _ => none
    else p.set? members

/-- A span with the members of an object set on it, one after the other. -/
def Span.set? (s : Span) : List (Json.Key × Json) → Option Span
  | [] => some s
  | (key, value) :: members =>
    if key.names "start" then match value with
      | .null => s.set? members
      | .object ms => do
        let start ← s.start.set? ms
        Span.set? { s with start } members
      | _ => none
    else if key.names "end" then match value with
      | .null => s.set? members
      | .object ms => do
        let stop ← s.stop.set? ms
        Span.set? { s with stop } members
      | _ => none
    else s.set? members

/-- Whether a JSON value has a shape or is null. -/
def Shape.accepts : Shape → Json → Bool
  | _, .null => true
  | .text, .string _ => true
  | .flag, .bool _ => true
  | .list, .array _ => true
  | .location, .object members => (Span.set? {} members).isSome
  | .any, _ => true
  | _, _ => false

end Scaffold
