/-!
# JSON values

A JSON value as a document states it.  The members of an object keep their
order and their repetitions, a key keeps how much room its escapes took, and a
number keeps the decimal it was written as, so that a reader of values decides
what a repeated key, an escaped key or a large number means.
-/

namespace Scaffold

/-- A number as written in decimal: `coefficient · 10 ^ exponent` with a sign. -/
structure Numeral where
  /-- Whether a minus sign is written in front. -/
  negative : Bool
  /-- The digits of the whole part and of the fraction, as one number. -/
  coefficient : Nat
  /-- The power of ten. -/
  exponent : Int
  /-- Whether the number is written with digits only, without a fraction and without an exponent. -/
  plain : Bool
  deriving DecidableEq, Repr

/-- A key as a document writes it. -/
structure Json.Key where
  /-- The text of the key. -/
  text : String
  /-- How many characters more than its text the key takes in the document, for its escapes. -/
  surplus : Nat := 0
  deriving DecidableEq, Repr

/-- A JSON value. -/
inductive Json where
  | null
  | bool (value : Bool)
  | number (numeral : Numeral)
  | string (text : String)
  | array (elements : List Json)
  | object (members : List (Json.Key × Json))
  deriving Repr

end Scaffold
