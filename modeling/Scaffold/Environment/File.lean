import Scaffold.Text.Blank
import Scaffold.Text.Quoted

/-!
# Variable files

A variable file is a sequence of assignments `NAME=value` or `NAME: value`,
each of which may have the word `export` in front.  A `#` where an assignment
could start begins a comment.  A carriage return before a line feed is dropped.

A name may hold letters, digits, `_`, `.` and blanks, and it is scanned byte by
byte: each byte of its UTF-8 form is judged as the Latin-1 character with that
number.

A value in quotes ends at the next quote of the same kind that has no backslash
in front, possibly on a later line, and assignments go on right after it.  In
double quotes `\n` and `\r` are control characters, the backslash before any
other character but `$` is dropped, and variables are expanded.  A value without
quotes ends with the line.  The last `#` on the line that has a blank in front
cuts it, the blanks around it are dropped, and variables are expanded.

A variable is expanded to the value that an earlier assignment of the same file
gave it.  A backslash before the dollar sign is dropped and stops the expansion.

`EnvFile.statements` takes at most as many steps as the file has characters.
Each step uses up at least one.
-/

namespace Scaffold.EnvFile

/-- Why a variable file cannot be read. -/
inductive Fault where
  /-- A name holds a character that it must not hold. -/
  | badName (found : Char) (rest : List Char)
  /-- There is nothing after the word `export`. -/
  | noName
  /-- A quoted value has no end. -/
  | unterminated (line : List Char)
  deriving DecidableEq, Repr

/-- What is said about a fault. -/
def Fault.message : Fault → String
  | .badName found rest =>
    "unexpected character " ++ Text.quote (String.singleton found) ++ " in variable name near "
      ++ Text.quote (String.ofList rest)
  | .noName => "zero length string"
  | .unterminated line => "unterminated quoted value " ++ String.ofList line

/-! ## Characters -/

/-- The blanks within a line. -/
def isBlank (c : Char) : Bool :=
  c = '\t' || c = '\x0b' || c = '\x0c' || c = '\r' || c = ' ' || c.toNat == 0x85 || c.toNat == 0xA0

/-- The letters and numbers among the Latin-1 characters. -/
def isLatinAlphanumeric (c : Char) : Bool :=
  let n := c.toNat
  c.isAlphanum || n == 0xAA || n == 0xB2 || n == 0xB3 || n == 0xB5 || n == 0xB9 || n == 0xBA
    || (0xBC ≤ n && n ≤ 0xBE) || (0xC0 ≤ n && n ≤ 0xFF && n != 0xD7 && n != 0xF7)

/-- The bytes of a character, each as the Latin-1 character with that number. -/
def latinBytes (c : Char) : List Char :=
  (String.utf8EncodeChar c).map fun b => Char.ofNat b.toNat

/-- The first byte of a character that cannot be part of a name. -/
def badByte? (c : Char) : Option Char :=
  (latinBytes c).find? fun b => !(isBlank b || b = '_' || b = '.' || isLatinAlphanumeric b)

/-- A text in which a carriage return before a line feed is dropped. -/
def unixLines : List Char → List Char
  | '\r' :: '\n' :: cs => '\n' :: unixLines cs
  | c :: cs => c :: unixLines cs
  | [] => []

/-! ## Names -/

/-- The text from the next assignment on, empty at the end of the file. -/
def skipComments : Nat → List Char → List Char
  | 0, _ => []
  | fuel + 1, cs => match cs.dropWhile Text.isBlank with
    | '#' :: rest => skipComments fuel (rest.dropWhile (· ≠ '\n'))
    | rest => rest

/-- A text without the word `export` in front, when a blank follows the word. -/
def dropExport (cs : List Char) : List Char :=
  match cs with
  | 'e' :: 'x' :: 'p' :: 'o' :: 'r' :: 't' :: c :: rest =>
    if isBlank c then rest.dropWhile isBlank else cs
  | _ => cs

/-- The characters up to the separator after a name, and the text after the separator, or nothing
when the text ends first. -/
def splitName : List Char → Except Char (Option (List Char × List Char))
  | [] => .ok none
  | c :: cs =>
    if c = '=' || c = ':' then .ok (some ([], cs))
    else match badByte? c with
      | some b => .error b
      | none => do
        let found ← splitName cs
        .ok (found.map fun (name, rest) => (c :: name, rest))

/-- The name at the front of a text, and the text after its separator and the blanks there.  A text
without a separator has an empty name and is all value. -/
def readName (cs : List Char) : Except Fault (List Char × List Char) :=
  let cs := dropExport cs
  if cs = [] then .error .noName
  else match splitName cs with
    | .error found => .error (.badName found cs)
    | .ok none => .ok ([], cs.dropWhile isBlank)
    | .ok (some (name, rest)) => .ok (Text.trimEnd Text.isBlank name, rest.dropWhile isBlank)

/-! ## Expansion -/

/-- The characters of a variable name in a value. -/
def isVariableChar (c : Char) : Bool := c.isUpper || c.isDigit || c = '_'

/-- A reference to a variable after its dollar sign. -/
structure Reference where
  /-- The name of the variable, possibly empty. -/
  name : List Char
  /-- The characters of the reference. -/
  text : List Char
  /-- The text after the reference. -/
  rest : List Char

/-- An optional character at the front of a text, and the text after it. -/
def option (c : Char) : List Char → List Char × List Char
  | d :: cs => if c = d then ([d], cs) else ([], d :: cs)
  | [] => ([], [])

/-- The reference after a dollar sign: a parenthesis, a brace, a name and a brace, each optional. -/
def reference (cs : List Char) : Reference :=
  let (paren, cs) := option '(' cs
  let (left, cs) := option '\x7b' cs
  let name := cs.takeWhile isVariableChar
  let (right, rest) := option '\x7d' (cs.dropWhile isVariableChar)
  ⟨name, paren ++ left ++ name ++ right, rest⟩

/-- The last value given to a name, empty when there is none. -/
def valueOf (assigned : List (List Char × List Char)) (name : List Char) : List Char :=
  assigned.foldl (fun value (n, v) => if n = name then v else value) []

/-- A value with its variables expanded, in at most `fuel` steps. -/
def expandWithin (assigned : List (List Char × List Char)) : Nat → List Char → List Char
  | 0, cs => cs
  | _ + 1, [] => []
  | fuel + 1, '\\' :: '$' :: cs =>
    let r := reference cs
    '$' :: r.text ++ expandWithin assigned fuel r.rest
  | fuel + 1, '$' :: cs =>
    let r := reference cs
    (if r.name = [] then '$' :: r.text else valueOf assigned r.name)
      ++ expandWithin assigned fuel r.rest
  | fuel + 1, c :: cs => c :: expandWithin assigned fuel cs

/-- A value with its variables expanded. -/
def expand (assigned : List (List Char × List Char)) (cs : List Char) : List Char :=
  expandWithin assigned cs.length cs

/-! ## Values -/

/-- A value with the escapes of line feed and carriage return replaced.  Other escapes stay. -/
def lineEscapes : List Char → List Char
  | '\\' :: 'n' :: cs => '\n' :: lineEscapes cs
  | '\\' :: 'r' :: cs => '\r' :: lineEscapes cs
  | '\\' :: c :: cs => '\\' :: c :: lineEscapes cs
  | c :: cs => c :: lineEscapes cs
  | [] => []

/-- A value without the backslashes in front of characters other than `$`. -/
def dropBackslashes : List Char → List Char
  | '\\' :: c :: cs =>
    if c = '$' then '\\' :: c :: dropBackslashes cs else c :: dropBackslashes cs
  | c :: cs => c :: dropBackslashes cs
  | [] => []

/-- The text in front of the last `#` that has a blank in front, when there is one.  `previous` is
the character in front of the text. -/
def beforeComment? (previous : Option Char) : List Char → Option (List Char)
  | [] => none
  | c :: cs => match beforeComment? (some c) cs with
    | some text => some (c :: text)
    | none => if c = '#' ∧ previous.any isBlank then some [] else none

/-- The part of a line that is not a comment. -/
def cutComment (line : List Char) : List Char := (beforeComment? none line).getD line

/-- The text up to the quote that ends a value, and the text after it.  `previous` is the character
in front. -/
def splitQuoted (quote previous : Char) : List Char → Option (List Char × List Char)
  | [] => none
  | c :: cs =>
    if c = quote ∧ previous ≠ '\\' then some ([], cs)
    else (splitQuoted quote c cs).map fun (value, rest) => (c :: value, rest)

/-- The value in quotes after an opening quote, and the text after it. -/
def readQuoted (assigned : List (List Char × List Char)) (quote : Char) (cs : List Char) :
    Except Fault (List Char × List Char) :=
  match splitQuoted quote quote cs with
  | none => .error (.unterminated (quote :: cs.takeWhile (· ≠ '\n')))
  | some (value, rest) =>
    let value := Text.trim (· = quote) (quote :: value)
    .ok (if quote = '"' then expand assigned (dropBackslashes (lineEscapes value)) else value, rest)

/-- Whether a character ends a line. -/
def isLineEnd (c : Char) : Bool := c = '\n' || c = '\r'

/-- The value at the front of a text, and the text after it. -/
def readValue (assigned : List (List Char × List Char)) (cs : List Char) :
    Except Fault (List Char × List Char) :=
  match cs with
  | '"' :: rest => readQuoted assigned '"' rest
  | '\x27' :: rest => readQuoted assigned '\x27' rest
  | cs =>
    let line := cs.takeWhile (!isLineEnd ·)
    .ok (expand assigned (Text.trim isBlank (cutComment line)), cs.dropWhile (!isLineEnd ·))

/-! ## Files -/

/-- The assignments of a text after those in `assigned`, in at most `fuel` steps. -/
def statements : Nat → List (List Char × List Char) → List Char →
    Except Fault (List (List Char × List Char))
  | 0, assigned, _ => .ok assigned
  | fuel + 1, assigned, cs => match skipComments (cs.length + 1) cs with
    | [] => .ok assigned
    | cs => do
      let (name, cs) ← readName cs
      let (value, rest) ← readValue assigned cs
      statements fuel (assigned ++ [(name, value)]) rest

/-- The names of assignments with the last value of each, in order of their first assignments. -/
def finalValues (assigned : List (List Char × List Char)) : List (List Char × List Char) :=
  (assigned.map (·.1)).eraseDups.map fun name => (name, valueOf assigned name)

/-- Whether an environment can hold a variable: its name is not empty, and neither text has a null
character. -/
def isVariable (name value : List Char) : Bool :=
  name ≠ [] && !name.contains '\x00' && !value.contains '\x00'

/-- The variables that a file assigns. -/
def read (content : String) : Except Fault (List (String × String)) := do
  let cs := unixLines content.toList
  let assigned ← statements (cs.length + 1) [] cs
  let values := (finalValues assigned).filter fun (name, value) => isVariable name value
  .ok (values.map fun (name, value) => (String.ofList name, String.ofList value))

end Scaffold.EnvFile
