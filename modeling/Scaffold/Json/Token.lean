import Scaffold.Json.Value
import Scaffold.Text.Hex

/-!
# JSON tokens

The text of a JSON document is first cut into tokens: the six punctuation
marks, the three words, strings and numbers.  Space, tab, carriage return and
line feed separate tokens and nothing else does.

A string literal is read in two steps.  Its *pieces* are the characters that
stand for themselves, the characters of the short escapes, and the sixteen-bit
units written as `\uXXXX`.  Joining the pieces combines a high unit with the low
unit right after it, and turns a surrogate that has no partner into U+FFFD.  The
token of a string also says how many characters its escapes took beyond the
characters that they stand for.

A number is read greedily: sign, whole part without a leading zero, fraction,
exponent.  `Token.scan` bounds its steps by the length of the text, and every
step takes at least one character.
-/

namespace Scaffold.Json

/-- The smallest parts of a JSON document. -/
inductive Token where
  | leftBrace
  | rightBrace
  | leftBracket
  | rightBracket
  | comma
  | colon
  | null
  | bool (value : Bool)
  | number (numeral : Numeral)
  | string (text : String) (surplus : Nat)
  deriving DecidableEq, Repr

/-! ## Strings -/

/-- A piece of a string literal. -/
inductive Piece where
  /-- A character that is written as itself. -/
  | char (c : Char)
  /-- A character that is written by a short escape. -/
  | escape (c : Char)
  /-- A sixteen-bit unit, written as `\uXXXX`. -/
  | unit (n : Nat)
  deriving DecidableEq, Repr

/-- How many characters a piece takes in the document. -/
def Piece.width : Piece → Nat
  | .char _ => 1
  | .escape _ => 2
  | .unit _ => 6

/-- The unit written with four hexadecimal digits. -/
def hexUnit? (a b c d : Char) : Option Nat := do
  let a ← Text.hexValue? a
  let b ← Text.hexValue? b
  let c ← Text.hexValue? c
  let d ← Text.hexValue? d
  some (((a * 16 + b) * 16 + c) * 16 + d)

/-- The character of a short escape. -/
def shortEscape? : Char → Option Char
  | '"' => some '"'
  | '\\' => some '\\'
  | '/' => some '/'
  | 'b' => some '\x08'
  | 'f' => some '\x0c'
  | 'n' => some '\n'
  | 'r' => some '\r'
  | 't' => some '\t'
  | _ => none

/-- The pieces up to the closing quote, and the text after it.  A control character is refused. -/
def readPieces? : List Char → Option (List Piece × List Char)
  | [] => none
  | '"' :: cs => some ([], cs)
  | '\\' :: 'u' :: a :: b :: c :: d :: cs => do
    let n ← hexUnit? a b c d
    let (pieces, rest) ← readPieces? cs
    some (.unit n :: pieces, rest)
  | '\\' :: e :: cs => do
    let c ← shortEscape? e
    let (pieces, rest) ← readPieces? cs
    some (.escape c :: pieces, rest)
  | c :: cs =>
    if c < ' ' then none
    else do
      let (pieces, rest) ← readPieces? cs
      some (.char c :: pieces, rest)

/-- The first unit of a pair of units. -/
def isHighUnit (n : Nat) : Bool := 0xD800 ≤ n && n < 0xDC00

/-- The second unit of a pair of units. -/
def isLowUnit (n : Nat) : Bool := 0xDC00 ≤ n && n < 0xE000

/-- The character that stands in for a surrogate without a partner. -/
def replacement : Char := Char.ofNat 0xFFFD

/-- The character of a pair of units. -/
def pairChar (high low : Nat) : Char :=
  Char.ofNat (0x10000 + (high - 0xD800) * 0x400 + (low - 0xDC00))

/-- The characters of a string literal.  `pending` is a high unit that waits for its partner. -/
def joinPieces (pending : Option Nat) : List Piece → List Char
  | [] => match pending with
    | none => []
    | some _ => [replacement]
  | .char c :: pieces | .escape c :: pieces => match pending with
    | none => c :: joinPieces none pieces
    | some _ => replacement :: c :: joinPieces none pieces
  | .unit n :: pieces => match pending with
    | none =>
      if isHighUnit n then joinPieces (some n) pieces
      else if isLowUnit n then replacement :: joinPieces none pieces
      else Char.ofNat n :: joinPieces none pieces
    | some high =>
      if isLowUnit n then pairChar high n :: joinPieces none pieces
      else if isHighUnit n then replacement :: joinPieces (some n) pieces
      else replacement :: Char.ofNat n :: joinPieces none pieces

/-- How many characters pieces take in the document. -/
def piecesWidth (pieces : List Piece) : Nat := pieces.foldl (fun n p => n + p.width) 0

/-- The string literal whose opening quote has been read, and the text after it. -/
def readString? (cs : List Char) : Option (Token × List Char) := do
  let (pieces, rest) ← readPieces? cs
  let chars := joinPieces none pieces
  some (.string (String.ofList chars) (piecesWidth pieces - chars.length), rest)

/-! ## Numbers -/

/-- A decimal digit. -/
def isDigit (c : Char) : Bool := '0' ≤ c && c ≤ '9'

/-- The number that a list of decimal digits denotes. -/
def digitsValue (digits : List Char) : Nat :=
  digits.foldl (fun n c => n * 10 + (c.toNat - 48)) 0

/-- The digits at the front of a text, at least one, and the text after them. -/
def readDigits? (cs : List Char) : Option (List Char × List Char) :=
  match cs.takeWhile isDigit with
  | [] => none
  | d :: ds => some (d :: ds, cs.dropWhile isDigit)

/-- The optional fraction of a number. -/
def readFraction? : List Char → Option (Option (List Char) × List Char)
  | '.' :: cs => do
    let (digits, rest) ← readDigits? cs
    some (some digits, rest)
  | cs => some (none, cs)

/-- The exponent after its letter. -/
def readSignedDigits? : List Char → Option (Int × List Char)
  | '-' :: cs => do
    let (digits, rest) ← readDigits? cs
    some (-(digitsValue digits : Int), rest)
  | '+' :: cs => do
    let (digits, rest) ← readDigits? cs
    some (digitsValue digits, rest)
  | cs => do
    let (digits, rest) ← readDigits? cs
    some (digitsValue digits, rest)

/-- The optional exponent of a number. -/
def readExponent? : List Char → Option (Option Int × List Char)
  | 'e' :: cs => do
    let (exponent, rest) ← readSignedDigits? cs
    some (some exponent, rest)
  | 'E' :: cs => do
    let (exponent, rest) ← readSignedDigits? cs
    some (some exponent, rest)
  | cs => some (none, cs)

/-- A number without its sign, and the text after it. -/
def readUnsigned? (negative : Bool) (cs : List Char) : Option (Numeral × List Char) := do
  let (whole, cs) ← readDigits? cs
  if whole.head? = some '0' ∧ whole.length ≠ 1 then none
  let (fraction, cs) ← readFraction? cs
  let (exponent, cs) ← readExponent? cs
  let decimals := fraction.getD []
  some ({
    negative
    coefficient := digitsValue (whole ++ decimals)
    exponent := exponent.getD 0 - decimals.length
    plain := fraction.isNone && exponent.isNone }, cs)

/-- A number, and the text after it. -/
def readNumeral? : List Char → Option (Numeral × List Char)
  | '-' :: cs => readUnsigned? true cs
  | cs => readUnsigned? false cs

/-! ## Tokens -/

/-- The four characters that separate tokens. -/
def isSpace (c : Char) : Bool := c = ' ' || c = '\t' || c = '\n' || c = '\r'

/-- The token at the front of a text that does not start with a separator, and the text after it. -/
def Token.next? : List Char → Option (Token × List Char)
  | '\x7b' :: cs => some (.leftBrace, cs)
  | '\x7d' :: cs => some (.rightBrace, cs)
  | '[' :: cs => some (.leftBracket, cs)
  | ']' :: cs => some (.rightBracket, cs)
  | ',' :: cs => some (.comma, cs)
  | ':' :: cs => some (.colon, cs)
  | '"' :: cs => readString? cs
  | 'n' :: 'u' :: 'l' :: 'l' :: cs => some (.null, cs)
  | 't' :: 'r' :: 'u' :: 'e' :: cs => some (.bool true, cs)
  | 'f' :: 'a' :: 'l' :: 's' :: 'e' :: cs => some (.bool false, cs)
  | cs => do
    let (numeral, rest) ← readNumeral? cs
    some (.number numeral, rest)

/-- The tokens of a text, in at most `fuel` steps. -/
def Token.scanWithin : Nat → List Char → Option (List Token)
  | _, [] => some []
  | 0, _ :: _ => none
  | fuel + 1, c :: cs =>
    if isSpace c then Token.scanWithin fuel cs
    else do
      let (token, rest) ← Token.next? (c :: cs)
      let tokens ← Token.scanWithin fuel rest
      some (token :: tokens)

/-- The tokens of a text. -/
def Token.scan? (cs : List Char) : Option (List Token) := Token.scanWithin cs.length cs

/-- Whether brackets and braces that stand `depth` deep nest at most `limit` deep. -/
def Token.nestWithin (limit : Nat) : Nat → List Token → Bool
  | _, [] => true
  | depth, token :: tokens => match token with
    | .leftBrace | .leftBracket => depth < limit && Token.nestWithin limit (depth + 1) tokens
    | .rightBrace | .rightBracket => Token.nestWithin limit (depth - 1) tokens
    | _ => Token.nestWithin limit depth tokens

end Scaffold.Json
