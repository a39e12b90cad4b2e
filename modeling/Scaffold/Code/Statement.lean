import Scaffold.Code.Declaration
import Scaffold.Text.Blank

/-!
# Lines of statements

A statement is written on lines.  A line is blank, or it is a text at a level of
indentation.  A statement that cannot be written has no lines, and the only
blank line is the one in front of a function.

The body of a branch, loop or function is one level deeper than its header.  A
block there gives its statements, and any other node is a body of one statement.
Every branch is written with its alternative, even when that is empty.
-/

namespace Scaffold.Code

/-- A line of a unit. -/
inductive Line where
  | blank
  | code (depth : Nat) (text : String)
  deriving DecidableEq, Repr

/-- The text of a line, one tab for each level of indentation. -/
def Line.text : Line → String
  | .blank => ""
  | .code depth text => String.ofList (List.replicate depth '\t') ++ text

/-- The arguments of a call `console.log(...)`. -/
def loggedArguments? : Option Node → Option (List (Option Node))
  | some (.callExpression (some (.memberExpression (some (.identifier object))
      (some (.identifier property)) false _)) arguments _) =>
    if object.name = "console" ∧ property.name = "log" then some arguments else none
  | _ => none

/-- The text of an expression in place of a statement.  A logging call prints its arguments. -/
def expressionStatement (e : Option Node) : String :=
  match loggedArguments? e with
  | some arguments => "fmt.Println" ++ grouped (expressionList arguments)
  | none => expression? .free e

/-- The text of a clause in the header of a loop, which may be a declaration. -/
def clause (ctx : Context) : Option Node → String
  | some (.variableDeclaration keyword declarators _) =>
    "; ".intercalate (declaration { ctx with depth := 0 } keyword declarators)
  | n => expression? .free n

/-- The header of a loop with three clauses.  It has no clauses when all of them are empty. -/
def loopHeader (init test update : String) : String :=
  if init = "" ∧ test = "" ∧ update = "" then "for \x7b"
  else
    let clauses := (init ++ "; " ++ test ++ "; " ++ update).toList
    "for " ++ String.ofList (Text.trimEnd (· = ' ') clauses) ++ " \x7b"

/-- The text of a parameter.  Only an identifier can be one. -/
def parameter? : Option Node → Option String
  | some (.identifier i) =>
    let inferred := infer i.name
    some (Text.joinNonEmpty [inferred.name, inferred.type])
  | _ => none

/-- The header of a function. -/
def functionHeader (id : Option Identifier) (params : List (Option Node)) : String :=
  let signature := infer (match id with
    | some i => i.name
    | none => "")
  "func " ++ signature.name ++ grouped (", ".intercalate (params.filterMap parameter?)) ++ " "
    ++ signature.type ++ "\x7b"

/-- The comment in every function that asks for its guessed types to be reviewed. -/
def reviewMarker : String :=
  "// NOTE: parameter and return types were inferred from names; review them manually"

mutual

/-- The lines of a node as a statement. -/
def statement (ctx : Context) : Node → List Line
  | .expressionStatement expression _ =>
    let text := expressionStatement expression
    if text = "" then [] else [.code ctx.depth text]
  | .returnStatement none _ => [.code ctx.depth "return"]
  | .returnStatement (some argument) _ =>
    [.code ctx.depth ("return " ++ expression .free argument)]
  | .blockStatement ⟨statements, _⟩ =>
    .code ctx.depth "\x7b" :: block ctx.nest statements ++ [.code ctx.depth "\x7d"]
  | .ifStatement test consequent alternate _ =>
    .code ctx.depth ("if " ++ expression? .free test ++ " \x7b") :: body ctx.nest consequent
      ++ .code ctx.depth "\x7d else \x7b" :: body ctx.nest alternate
      ++ [.code ctx.depth "\x7d"]
  | .forStatement init test update statements _ =>
    .code ctx.depth (loopHeader (clause ctx init) (expression? .free test) (clause ctx update))
      :: body ctx.nest statements ++ [.code ctx.depth "\x7d"]
  | .whileStatement test statements _ =>
    .code ctx.depth ("for " ++ expression? .free test ++ " \x7b") :: body ctx.nest statements
      ++ [.code ctx.depth "\x7d"]
  | .breakStatement _ => [.code ctx.depth "break"]
  | .continueStatement _ => [.code ctx.depth "continue"]
  | .variableDeclaration keyword declarators _ =>
    (declaration ctx keyword declarators).map (.code ctx.depth)
  | .functionDeclaration id params statements _ =>
    .blank :: .code ctx.depth (functionHeader id params) :: .code (ctx.depth + 1) reviewMarker
      :: functionBody ctx.nest statements ++ [.code ctx.depth "\x7d"]
  | _ => []

/-- The lines of the body of a branch or loop. -/
def body (ctx : Context) : Option Node → List Line
  | none => []
  | some (.blockStatement ⟨statements, _⟩) => block ctx statements
  | some n => statement ctx n

/-- The lines of a sequence of statements. -/
def block (ctx : Context) : List (Option Node) → List Line
  | [] => []
  | none :: rest => block ctx rest
  | some n :: rest => statement ctx n ++ block ctx rest

/-- The lines of the body of a function. -/
def functionBody (ctx : Context) : Option (Block Node) → List Line
  | none => []
  | some ⟨statements, _⟩ => block ctx statements

end

end Scaffold.Code
