/-!
# Log records

A record has a level, a message and attributes in order.  Levels are numbers.
Four of them have names, four apart, and a level between two names is the lower
name with its distance.  A level has sixty-four bits: a distance that leads out
of them leads back in at the other end.
-/

namespace Scaffold.Log

/-- The weight of a record. -/
structure Level where
  /-- The weight as a number. -/
  value : Int64
  deriving DecidableEq, Repr

namespace Level

/-- Records that help to follow a run. -/
def debug : Level := ⟨-4⟩

/-- Records of what was done. -/
def info : Level := ⟨0⟩

/-- Records of what may be wrong. -/
def warn : Level := ⟨4⟩

/-- Records of what went wrong. -/
def error : Level := ⟨8⟩

/-- A name with the distance from it, when there is one. -/
def offsetText (name : String) (offset : Int) : String :=
  if offset = 0 then name
  else name ++ (if 0 < offset then "+" else "") ++ toString offset

/-- The text of a level: the name at or below it, and the distance. -/
def text (l : Level) : String :=
  if l.value < info.value then offsetText "DEBUG" (l.value - debug.value).toInt
  else if l.value < warn.value then offsetText "INFO" (l.value - info.value).toInt
  else if l.value < error.value then offsetText "WARN" (l.value - warn.value).toInt
  else offsetText "ERROR" (l.value - error.value).toInt

/-- The level with a name, in any case of letters. -/
def ofName? (name : String) : Option Level :=
  match name.map Char.toUpper with
  | "DEBUG" => some debug
  | "INFO" => some info
  | "WARN" => some warn
  | "ERROR" => some error
  | _ => none

/-- The distance with a sign and decimal digits, if it has sixty-four bits. -/
def distance? (sign : Char) (digits : List Char) : Option Int64 :=
  if digits = [] ∨ !digits.all Char.isDigit then none
  else
    let size : Nat := digits.foldl (fun n c => n * 10 + (c.toNat - 48)) 0
    let distance : Int := if sign = '-' then -size else size
    if (Int64.ofInt distance).toInt = distance then some (Int64.ofInt distance) else none

/-- The level that a name with an optional signed distance denotes. -/
def read? (text : String) : Option Level :=
  let isSign (c : Char) : Bool := c = '+' || c = '-'
  let name := String.ofList (text.toList.takeWhile (!isSign ·))
  match text.toList.dropWhile (!isSign ·) with
  | [] => ofName? name
  | sign :: digits => do
    let level ← ofName? name
    let distance ← distance? sign digits
    some ⟨level.value + distance⟩

end Level

/-- The value of an attribute. -/
inductive Value where
  | text (value : String)
  | count (value : Nat)
  | flag (value : Bool)
  deriving DecidableEq, Repr

/-- The value of an attribute as plain text. -/
def Value.plain : Value → String
  | .text s => s
  | .count n => toString n
  | .flag b => if b then "true" else "false"

/-- A log record. -/
structure Record where
  /-- How weighty it is. -/
  level : Level
  /-- What happened. -/
  message : String
  /-- Particulars, in order. -/
  attributes : List (String × Value) := []
  deriving DecidableEq, Repr

end Scaffold.Log
