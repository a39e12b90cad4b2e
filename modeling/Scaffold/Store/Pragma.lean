import Scaffold.Text.Blank

/-!
# Pragmas

A pragma is a wish about a database connection: a name, perhaps after the name
of a schema, and perhaps a value after an equals sign or between parentheses.
A name is a word or a quoted text, and a value is a name or a number.  A pragma
that no one knows is passed over, so only its form matters.

Of the known pragmas one is told apart: `query_only` keeps a connection from
writing.
-/

namespace Scaffold

/-- A pragma. -/
structure Pragma where
  /-- The schema it is about, if it names one. -/
  schema : Option String := none
  /-- Its name. -/
  name : String
  /-- Its value, if it has one. -/
  value : Option String := none
  deriving DecidableEq, Repr

namespace Pragma

/-- White space between the parts of a pragma. -/
def isSpace (c : Char) : Bool :=
  c = ' ' || c = '\t' || c = '\n' || c = '\x0c' || c = '\r'

/-- The text after white space. -/
def skip (cs : List Char) : List Char := Text.trimStart isSpace cs

/-- A character that may start a word. -/
def startsWord (c : Char) : Bool := c.isAlpha || c = '_' || 0x80 ≤ c.toNat

/-- A character that may stand in a word. -/
def inWord (c : Char) : Bool := startsWord c || c.isDigit || c = '$'

/-- The quote that closes a quoted text. -/
def closing? : Char → Option Char
  | '"' => some '"'
  | '\x27' => some '\x27'
  | '\x60' => some '\x60'
  | '[' => some ']'
  | _ => none

/-- The name at the front of a text, and the text after it. -/
def readName? : List Char → Option (String × List Char)
  | [] => none
  | c :: cs => match closing? c with
    | some close => match cs.dropWhile (· ≠ close) with
      | [] => none
      | _ :: rest => some (String.ofList (cs.takeWhile (· ≠ close)), rest)
    | none =>
      if startsWord c then
        some (String.ofList (c :: cs.takeWhile inWord), cs.dropWhile inWord)
      else none

/-- The number at the front of a text, and the text after it. -/
def readNumber? (cs : List Char) : Option (String × List Char) :=
  let inNumber (c : Char) : Bool := inWord c || c = '.'
  let text := cs.takeWhile inNumber
  if text.all (fun c => c.isDigit || c = '.') ∧ text.any Char.isDigit
      ∧ (text.filter (· = '.')).length ≤ 1 then
    some (String.ofList text, cs.dropWhile inNumber)
  else none

/-- The value at the front of a text, and the text after it. -/
def readValue? (cs : List Char) : Option (String × List Char) :=
  match cs with
  | '-' :: cs => do
    let (number, rest) ← readNumber? (skip cs)
    some ("-" ++ number, rest)
  | '+' :: cs => readNumber? (skip cs)
  | cs => match readName? cs with
    | some result => some result
    | none => readNumber? cs

/-- The value of a pragma after its name, if it has one, and the text after it. -/
def readSetting? : List Char → Option (Option String × List Char)
  | '=' :: cs => do
    let (value, rest) ← readValue? (skip cs)
    some (some value, rest)
  | '(' :: cs => do
    let (value, rest) ← readValue? (skip cs)
    match skip rest with
    | ')' :: rest => some (some value, rest)
    | _ => none
  | cs => some (none, cs)

/-- Whether a text holds nothing more than the end of a pragma. -/
def isEnd (cs : List Char) : Bool := cs.all fun c => isSpace c || c = ';'

/-- The pragma that a text states. -/
def read? (text : String) : Option Pragma := do
  let (first, rest) ← readName? (skip text.toList)
  let (schema, name, rest) ← (match skip rest with
    | '.' :: rest => do
      let (second, rest) ← readName? (skip rest)
      some (some first, second, rest)
    | rest => some (none, first, rest))
  let (value, rest) ← readSetting? (skip rest)
  if isEnd rest then some { schema, name, value } else none

/-- Whether there is a schema of the given name. -/
def isSchema (name : String) : Bool :=
  let name := name.map Char.toLower
  name = "main" || name = "temp"

/-- Whether a connection takes notice of a pragma or passes over it, and does not refuse it. -/
def isAccepted (p : Pragma) : Bool := p.schema.all isSchema

/-- Whether the value of a parameter or pragma switches something on. -/
def isOn (value : String) : Bool :=
  let digits := value.toList.takeWhile Char.isDigit
  if digits = [] then ["on", "yes", "true"].contains (value.map Char.toLower)
  else digits.any (· ≠ '0')

/-- Whether a pragma keeps its connection from writing. -/
def forbidsWriting (p : Pragma) : Bool :=
  p.name.map Char.toLower == "query_only" && p.value.any isOn

end Pragma

end Scaffold
