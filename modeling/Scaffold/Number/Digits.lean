import Scaffold.Number.Binary

/-!
# Decimal digits of binary numbers

`shortest` gives the fewest decimal digits that identify a positive number of a
binary format, and among those the digits nearest to the number.  A decimal
identifies the number when it rounds to it, that is, when it lies between the
midpoints to the two neighbours.  The midpoints themselves count when the
mantissa is even, since a half is rounded to the even neighbour.

For one digit, two digits, and so on, the two decimals around the number are
tried.  The first count at which one of them identifies the number wins.  If
both do, the nearer one wins, and the even one when the number lies half-way.

The digits are laid out in two ways.  `positional` never writes an exponent.
`scientific` writes one digit, the others after a point, and an exponent of at
least two digits.
-/

namespace Scaffold

/-- Decimal digits `d₁ d₂ …`, which denote `0.d₁d₂… · 10 ^ point`. -/
structure Digits where
  /-- The digits, the first of which is not zero. -/
  digits : List Char
  /-- Where the decimal point stands, counted from the front of the digits. -/
  point : Int
  deriving DecidableEq, Repr

namespace Digits

/-- The decimal digits of a natural number. -/
def ofNat (n : Nat) : List Char := Nat.toDigits 10 n

/-- The place of the decimal point of a positive ratio, so that
`10 ^ (place - 1) ≤ num / den < 10 ^ place`. -/
def place (num den : Nat) : Int :=
  if den ≤ num then (ofNat (num / den)).length
  else 1 - (ofNat ((den - 1) / num)).length

/-- The midpoints around a number, in quarters of its last place, and whether they count. -/
structure Interval where
  /-- The midpoint to the neighbour below. -/
  low : Nat
  /-- The midpoint to the neighbour above. -/
  high : Nat
  /-- Whether the midpoints are rounded to the number. -/
  closed : Bool

/-- The interval of a positive number.  Its neighbour below is nearer when its mantissa is the least
one with the top bit set, the numbers of the least exponent apart. -/
def interval (f : Binary.Format) (mantissa : Nat) (exponent : Int) : Interval where
  low :=
    if mantissa = Nat.pow 2 (f.precision - 1) ∧ f.least < exponent then 4 * mantissa - 1
    else 4 * mantissa - 2
  high := 4 * mantissa + 2
  closed := mantissa % 2 = 0

/-- Whether the ratio `num / den` lies in an interval. -/
def Interval.holds (i : Interval) (num den : Nat) : Bool :=
  if i.closed then i.low * den ≤ num && num ≤ i.high * den
  else i.low * den < num && num < i.high * den

/-- The multiple of a decimal unit that identifies the number, if there is one.  The number is
`value` quarters of its last place, and the unit is `unit.1 / unit.2` such quarters. -/
def multiple? (i : Interval) (value : Nat) (unit : Nat × Nat) : Option Nat :=
  let below := value * unit.2 / unit.1
  let hits (n : Nat) := i.holds (n * unit.1) unit.2
  match hits below, hits (below + 1) with
  | false, false => none
  | true, false => some below
  | false, true => some (below + 1)
  | true, true =>
    let twice := 2 * value * unit.2
    let middle := (2 * below + 1) * unit.1
    if twice < middle then some below
    else if middle < twice then some (below + 1)
    else if below % 2 = 0 then some below else some (below + 1)

/-- A natural number as digits whose last place has the given exponent, without trailing zeros. -/
def normal (n : Nat) (last : Int) : Digits :=
  let all := ofNat n
  ⟨(all.reverse.dropWhile (· == '0')).reverse, last + all.length⟩

/-- The power of ten `10 ^ last` in quarters `2 ^ quarter`, as a ratio. -/
def unitIn (quarter last : Int) : Nat × Nat :=
  let (num, den) := Ratio.scale 2 1 1 quarter
  Ratio.scale 10 num den (-last)

/-- The first digit count from `count` on that identifies the number, in at most `fuel` tries. -/
def search (i : Interval) (value : Nat) (quarter place : Int) : Nat → Nat → Option Digits
  | 0, _ => none
  | fuel + 1, count =>
    match multiple? i value (unitIn quarter (place - count)) with
    | some n => some (normal n (place - count))
    | none => search i value quarter place fuel (count + 1)

/-- The greatest number of digits that a number of a format here needs. -/
def most : Nat := 17

/-- The fewest digits that identify a positive number `mantissa · 2 ^ exponent` of a format. -/
def shortest (f : Binary.Format) (mantissa : Nat) (exponent : Int) : Digits :=
  let value := 4 * mantissa
  let quarter := exponent - 2
  let (num, den) := Ratio.scale 2 value 1 (-quarter)
  (search (interval f mantissa exponent) value quarter (place num den) most 1).getD ⟨[], 0⟩

/-! ## Layouts -/

/-- The digits with a decimal point where it stands, zeros filling up on either side. -/
def positional (d : Digits) : List Char :=
  if d.point ≤ 0 then '0' :: '.' :: List.replicate d.point.natAbs '0' ++ d.digits
  else if d.digits.length ≤ d.point.natAbs then
    d.digits ++ List.replicate (d.point.natAbs - d.digits.length) '0'
  else d.digits.take d.point.natAbs ++ '.' :: d.digits.drop d.point.natAbs

/-- An exponent with its sign and at least two digits. -/
def exponentText (e : Int) : List Char :=
  let digits := ofNat e.natAbs
  (if e < 0 then '-' else '+') :: (if digits.length < 2 then '0' :: digits else digits)

/-- The digits with a point after the first one, and an exponent. -/
def scientific (d : Digits) : List Char :=
  let lead := match d.digits with
    | [] => ['0']
    | [c] => [c]
    | c :: cs => c :: '.' :: cs
  lead ++ 'e' :: exponentText (d.point - 1)

end Digits

end Scaffold
