import Scaffold.Number.Digits
import Scaffold.Text.Quoted

/-!
# Literal values

The value of a literal is a JSON value with its numbers rounded to a binary
format and the members of each object in the order of their keys, each key
once.  Trees built by hand may also hold integers and single-precision numbers.

A number is written in two ways.  In code it is positional.  In an outline it
is positional when its decimal exponent lies between -4 and 5, and scientific
otherwise.
-/

namespace Scaffold

/-- The value of a literal. -/
inductive Value where
  | null
  | bool (value : Bool)
  | integer (value : Int)
  | number (format : Binary.Format) (value : Binary)
  | string (text : String)
  | array (elements : List Value)
  | object (members : List (String × Value))
  deriving Repr

/-! ## Numbers -/

/-- A number with its sign in front, the digits laid out by `layout`, and `0` for zero. -/
def Binary.textWith (layout : Digits → List Char) (f : Binary.Format) : Binary → String
  | .nan => "NaN"
  | .infinite negative => if negative then "-Inf" else "+Inf"
  | .finite negative mantissa exponent =>
    let digits := if mantissa = 0 then ['0'] else layout (Digits.shortest f mantissa exponent)
    String.ofList (if negative then '-' :: digits else digits)

/-- A number as it stands in code: never with an exponent. -/
def Binary.codeText : Binary.Format → Binary → String := Binary.textWith Digits.positional

/-- Digits as they stand in an outline: with an exponent when it is below -4 or above 5. -/
def Digits.outlineLayout (d : Digits) : List Char :=
  if d.point - 1 < -4 ∨ 6 ≤ d.point - 1 then d.scientific else d.positional

/-- A number as it stands in an outline. -/
def Binary.outlineText : Binary.Format → Binary → String := Binary.textWith Digits.outlineLayout

/-! ## Values in an outline -/

mutual

/-- A value inside an outline, its texts without quotes. -/
def Value.outlineText : Value → String
  | .null => "<nil>"
  | .bool b => if b then "true" else "false"
  | .integer n => toString n
  | .number f x => Binary.outlineText f x
  | .string s => s
  | .array vs => "[" ++ " ".intercalate (Value.outlineTexts vs) ++ "]"
  | .object ms => "map[" ++ " ".intercalate (Value.memberTexts ms) ++ "]"

/-- The elements of an array in an outline. -/
def Value.outlineTexts : List Value → List String
  | [] => []
  | v :: vs => v.outlineText :: Value.outlineTexts vs

/-- The members of an object in an outline. -/
def Value.memberTexts : List (String × Value) → List String
  | [] => []
  | (k, v) :: ms => (k ++ ":" ++ v.outlineText) :: Value.memberTexts ms

end

/-! ## Values from JSON -/

/-- The members of an object with one of them set.  The keys stay in ascending order. -/
def Value.setMember (key : String) (value : Value) : List (String × Value) → List (String × Value)
  | [] => [(key, value)]
  | (k, v) :: ms =>
    if key < k then (key, value) :: (k, v) :: ms
    else if key = k then (key, value) :: ms
    else (k, v) :: Value.setMember key value ms

mutual

/-- The value that a JSON value denotes, or nothing when a number is out of the double range. -/
def Value.ofJson? : Json → Option Value
  | .null => some .null
  | .bool b => some (.bool b)
  | .number n => (Binary.Format.double.ofNumeral? n).map (.number .double)
  | .string s => some (.string s)
  | .array js => (Value.ofElements? js).map .array
  | .object ms => (Value.ofMembers? [] ms).map .object

/-- The values of the elements of an array. -/
def Value.ofElements? : List Json → Option (List Value)
  | [] => some []
  | j :: js => do
    let v ← Value.ofJson? j
    let vs ← Value.ofElements? js
    some (v :: vs)

/-- The members of an object, set one after the other on top of `done`, so that the last of a
repeated key counts. -/
def Value.ofMembers? (done : List (String × Value)) :
    List (Json.Key × Json) → Option (List (String × Value))
  | [] => some done
  | (k, j) :: ms => do
    let v ← Value.ofJson? j
    Value.ofMembers? (Value.setMember k.text v done) ms

end

end Scaffold
