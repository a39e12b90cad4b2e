import Scaffold.Json.Token

/-!
# Reading JSON

A document is one JSON value, possibly between separators.  The value is read
from the tokens of the text by recursive descent: a value, the elements of an
array after its opening bracket, and the members of an object after its opening
brace.  The three functions share a fuel argument, which `Json.read?` sets to
more than twice the number of tokens.

A document whose arrays and objects nest deeper than `Json.nestingLimit` is not
read.
-/

namespace Scaffold.Json

mutual

/-- The value at the front of a list of tokens, and the tokens after it. -/
def readValue? : Nat → List Token → Option (Json × List Token)
  | 0, _ => none
  | _ + 1, [] => none
  | fuel + 1, token :: tokens => match token with
    | .null => some (.null, tokens)
    | .bool b => some (.bool b, tokens)
    | .number n => some (.number n, tokens)
    | .string s _ => some (.string s, tokens)
    | .leftBracket => match tokens with
      | .rightBracket :: tokens => some (.array [], tokens)
      | tokens => do
        let (elements, rest) ← readElements? fuel tokens
        some (.array elements, rest)
    | .leftBrace => match tokens with
      | .rightBrace :: tokens => some (.object [], tokens)
      | tokens => do
        let (members, rest) ← readMembers? fuel tokens
        some (.object members, rest)
    | _ => none

/-- One or more values separated by commas, and the tokens after the closing bracket. -/
def readElements? : Nat → List Token → Option (List Json × List Token)
  | 0, _ => none
  | fuel + 1, tokens => do
    let (value, rest) ← readValue? fuel tokens
    match rest with
    | .rightBracket :: rest => some ([value], rest)
    | .comma :: rest => do
      let (values, rest) ← readElements? fuel rest
      some (value :: values, rest)
    | _ => none

/-- One or more members separated by commas, and the tokens after the closing brace. -/
def readMembers? : Nat → List Token → Option (List (Key × Json) × List Token)
  | fuel + 1, .string text surplus :: .colon :: tokens => do
    let (value, rest) ← readValue? fuel tokens
    match rest with
    | .rightBrace :: rest => some ([(⟨text, surplus⟩, value)], rest)
    | .comma :: rest => do
      let (members, rest) ← readMembers? fuel rest
      some ((⟨text, surplus⟩, value) :: members, rest)
    | _ => none
  | _, _ => none

end

/-- How deep the arrays and objects of a document may nest. -/
def nestingLimit : Nat := 10000

/-- The value of a JSON document, or nothing when the text is not JSON or nests too deep. -/
def read? (text : String) : Option Json := do
  let tokens ← Token.scan? text.toList
  if !Token.nestWithin nestingLimit 0 tokens then none
  let (value, rest) ← readValue? (2 * tokens.length + 1) tokens
  if rest.isEmpty then some value else none

end Scaffold.Json
