import Scaffold.Json.Reader
import Scaffold.Text.Blank
import Scaffold.Tree.Field

/-!
# Decoding syntax trees

A document is decoded from its root object down.  For each node object the
values of all fields in the table are checked first.  Then the type has to be
there.  Then the children that the type uses are decoded in a fixed order, and
the first fault ends the decoding.  A field that the type does not use is never
looked into.

Of a repeated key the last one counts.  A null leaves a text or a flag as it
was, and makes a list, a child or a span absent.  A repeated span is set on top
of the one before.

Decoding is structural.  `Decode.entries` reads each member of an object once,
as a child and as a list of children, and keeps the outcome beside the value.
`Decode.node` then takes the outcomes it needs, so a fault in a member that is
not needed is never reported.
-/

namespace Scaffold

/-- Why a document is not a syntax tree. -/
inductive Fault where
  /-- The document is blank. -/
  | blank
  /-- The document is a null. -/
  | null
  /-- The text is not JSON, or a value has the wrong shape. -/
  | json
  /-- A node object has no type. -/
  | typeless
  /-- The body of a program or block is not an array. -/
  | body (kind : Kind)
  /-- The value of a literal holds a number out of range. -/
  | literal
  /-- A declaration holds something other than a declarator. -/
  | declaration (found : String)
  /-- The name of a function is not an identifier. -/
  | functionName (found : String)
  /-- The body of a function is not a block. -/
  | functionBody (found : String)
  deriving DecidableEq, Repr

/-- What is said about a fault.  The details of a malformed JSON text are not told. -/
def Fault.message : Fault → String
  | .blank => "empty document"
  | .null => "document is null"
  | .json => "<json>"
  | .typeless => "node without type"
  | .body kind => kind.name ++ ".body: <json>"
  | .literal => "Literal: <json>"
  | .declaration found => "VariableDeclaration: unexpected " ++ found ++ " in declarations"
  | .functionName found => "FunctionDeclaration: id is " ++ found
  | .functionBody found => "FunctionDeclaration: body is " ++ found

namespace Decode

/-- The value of a field, with what it is as a child and as a list of children. -/
structure Reading where
  /-- The value itself. -/
  value : Json
  /-- The value as a child. -/
  child : Except Fault (Option Node)
  /-- The elements of the value as children, none when it is not an array. -/
  children : Except Fault (List (Option Node))

/-- The members of a node object that are in the table of fields, in order. -/
abbrev Entries := List (Field × Reading)

/-! ## Fields of a node object -/

/-- Whether every entry has the shape of its field. -/
def accepts (es : Entries) : Bool := es.all fun (f, r) => f.shape.accepts r.value

/-- The last text of a field, empty when there is none. -/
def text (f : Field) (es : Entries) : String :=
  es.foldl (fun s e => match e.2.value with
    | .string t => if e.1 = f then t else s
    | _ => s) ""

/-- The last flag of a field, false when there is none. -/
def flag (f : Field) (es : Entries) : Bool :=
  es.foldl (fun b e => match e.2.value with
    | .bool c => if e.1 = f then c else b
    | _ => b) false

/-- The span of a node object, zero when there is none. -/
def span (es : Entries) : Span :=
  (es.foldl (fun s e => if e.1 = .loc then match e.2.value with
      | .object members => (s.getD {}).set? members
      | _ => none
    else s) (none : Option Span)).getD {}

/-- The last reading of a field. -/
def last? (f : Field) : Entries → Option Reading
  | [] => none
  | (g, r) :: es => match last? f es with
    | some r => some r
    | none => if g = f then some r else none

/-- The child in a field. -/
def child (f : Field) (es : Entries) : Except Fault (Option Node) :=
  match last? f es with
  | none => .ok none
  | some r => r.child

/-- The children in a list field. -/
def children (f : Field) (es : Entries) : Except Fault (List (Option Node)) :=
  match last? f es with
  | none => .ok []
  | some r => r.children

/-- The statements of a program or block. -/
def statements (kind : Kind) (es : Entries) : Except Fault (List (Option Node)) :=
  match last? .body es with
  | none => .ok []
  | some r => match r.value with
    | .null => .ok []
    | .array _ => r.children
    | _ => .error (.body kind)

/-- The value of a literal. -/
def literal (es : Entries) : Except Fault Value :=
  match last? .value es with
  | none => .ok .null
  | some r => match Value.ofJson? r.value with
    | some v => .ok v
    | none => .error .literal

/-- The declarators among decoded nodes.  Absent ones are passed over. -/
def declarators : List (Option Node) → Except Fault (List (Declarator Node))
  | [] => .ok []
  | none :: ns => declarators ns
  | some (.variableDeclarator d) :: ns => do
    let ds ← declarators ns
    .ok (d :: ds)
  | some n :: _ => .error (.declaration n.kindName)

/-- The name of a function. -/
def functionName : Option Node → Except Fault (Option Identifier)
  | none => .ok none
  | some (.identifier i) => .ok (some i)
  | some n => .error (.functionName n.kindName)

/-- The body of a function. -/
def functionBody : Option Node → Except Fault (Option (Block Node))
  | none => .ok none
  | some (.blockStatement b) => .ok (some b)
  | some n => .error (.functionBody n.kindName)

/-! ## Nodes -/

/-- The node of a known kind, its children decoded in the order in which they are named here. -/
def nodeOf (kind : Kind) (es : Entries) : Except Fault Node :=
  let span := span es
  match kind with
  | .program => do
    let body ← statements .program es
    .ok (.program body (text .sourceType es) span)
  | .expressionStatement => do
    let expression ← child .expression es
    .ok (.expressionStatement expression span)
  | .returnStatement => do
    let argument ← child .argument es
    .ok (.returnStatement argument span)
  | .blockStatement => do
    let body ← statements .blockStatement es
    .ok (.blockStatement ⟨body, span⟩)
  | .ifStatement => do
    let test ← child .test es
    let consequent ← child .consequent es
    let alternate ← child .alternate es
    .ok (.ifStatement test consequent alternate span)
  | .forStatement => do
    let init ← child .init es
    let test ← child .test es
    let update ← child .update es
    let body ← child .body es
    .ok (.forStatement init test update body span)
  | .whileStatement => do
    let test ← child .test es
    let body ← child .body es
    .ok (.whileStatement test body span)
  | .breakStatement => .ok (.breakStatement span)
  | .continueStatement => .ok (.continueStatement span)
  | .variableDeclaration => do
    let declarations ← children .declarations es
    let declarators ← declarators declarations
    .ok (.variableDeclaration (text .kind es) declarators span)
  | .variableDeclarator => do
    let id ← child .id es
    let init ← child .init es
    .ok (.variableDeclarator ⟨id, init, span⟩)
  | .functionDeclaration => do
    let params ← children .params es
    let id ← child .id es
    let name ← functionName id
    let body ← child .body es
    let block ← functionBody body
    .ok (.functionDeclaration name params block span)
  | .literal => do
    let value ← literal es
    .ok (.literal value (text .raw es) span)
  | .identifier => .ok (.identifier ⟨text .name es, span⟩)
  | .binaryExpression => do
    let left ← child .left es
    let right ← child .right es
    .ok (.binaryExpression (text .operator es) left right span)
  | .logicalExpression => do
    let left ← child .left es
    let right ← child .right es
    .ok (.logicalExpression (text .operator es) left right span)
  | .unaryExpression => do
    let argument ← child .argument es
    .ok (.unaryExpression (text .operator es) (flag .isPrefix es) argument span)
  | .memberExpression => do
    let object ← child .object es
    let property ← child .property es
    .ok (.memberExpression object property (flag .computed es) span)
  | .callExpression => do
    let callee ← child .callee es
    let arguments ← children .arguments es
    .ok (.callExpression callee arguments span)
  | .arrayExpression => do
    let elements ← children .elements es
    .ok (.arrayExpression elements span)
  | .updateExpression => do
    let argument ← child .argument es
    .ok (.updateExpression (text .operator es) (flag .isPrefix es) argument span)
  | .assignmentExpression => do
    let left ← child .left es
    let right ← child .right es
    .ok (.assignmentExpression (text .operator es) left right span)

/-- The node of a node object. -/
def node (es : Entries) : Except Fault Node :=
  if !accepts es then .error .json
  else
    let type := text .type es
    if type = "" then .error .typeless
    else match Kind.ofName? type with
      | some kind => nodeOf kind es
      | none => .ok (.unknown type (span es))

mutual

/-- A JSON value as a child: a null is absent, and anything else has to be a node object. -/
def ofJson : Json → Except Fault (Option Node)
  | .null => .ok none
  | .object members => (node (entries members)).map some
  | _ => .error .json

/-- The elements of an array as children, up to the first fault. -/
def ofElements : List Json → Except Fault (List (Option Node))
  | [] => .ok []
  | j :: js => do
    let n ← ofJson j
    let ns ← ofElements js
    .ok (n :: ns)

/-- A JSON value as a list of children. -/
def ofArray : Json → Except Fault (List (Option Node))
  | .array elements => ofElements elements
  | _ => .ok []

/-- The members of an object that are in the table of fields, each with its readings. -/
def entries : List (Json.Key × Json) → Entries
  | [] => []
  | (key, j) :: members => match Field.ofKey? key.text with
    | some f => (f, ⟨j, ofJson j, ofArray j⟩) :: entries members
    | none => entries members

end

end Decode

/-- The syntax tree of a document. -/
def Node.parse (document : String) : Except Fault Node :=
  let content := Text.trim Text.isBlank document.toList
  if content = [] then .error .blank
  else if content = "null".toList then .error .null
  else match Json.read? document with
    | none => .error .json
    | some j => match Decode.ofJson j with
      | .ok (some n) => .ok n
      | .ok none => .error .null
      | .error fault => .error fault

/-- What is said about a fault of the document at a path. -/
def Fault.messageAt (path : String) (fault : Fault) : String := path ++ ": " ++ fault.message

end Scaffold
