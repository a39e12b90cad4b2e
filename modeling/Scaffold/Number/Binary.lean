import Scaffold.Json.Value
import Scaffold.Number.Ratio

/-!
# Binary floating-point numbers

A finite number of a binary format is `mantissa · 2 ^ exponent` with a sign.
The mantissa is below `2 ^ precision`, and it has its top bit set unless the
exponent is the least one of the format.  So every finite number has one
representation.

`Format.round?` rounds a ratio of natural numbers to the nearest number of the
format, a half to the even neighbour.  All arithmetic is exact.  It refuses a
ratio whose rounded value lies above the greatest number of the format.
-/

namespace Scaffold

/-- A number of a binary format, with the two infinities and the value that is no number. -/
inductive Binary where
  | nan
  | infinite (negative : Bool)
  | finite (negative : Bool) (mantissa : Nat) (exponent : Int)
  deriving DecidableEq, Repr

/-- The shape of a binary format. -/
structure Binary.Format where
  /-- The number of bits of a mantissa. -/
  precision : Nat
  /-- The least exponent of a finite number. -/
  least : Int
  /-- The greatest exponent of a finite number. -/
  greatest : Int
  deriving DecidableEq, Repr

namespace Binary

/-- The format with 53 bits of precision. -/
def Format.double : Format := ⟨53, -1074, 971⟩

/-- The format with 24 bits of precision. -/
def Format.single : Format := ⟨24, -149, 104⟩

/-- The exponent at which a positive ratio fills the mantissa of the format, or the least one. -/
def Format.exponentOf (f : Format) (num den : Nat) : Int :=
  let guess : Int := (num.log2 : Int) - den.log2 - f.precision
  let (n, d) := Ratio.scale 2 num den guess
  let exponent := if n / d < Nat.pow 2 f.precision then guess else guess + 1
  if exponent < f.least then f.least else exponent

/-- The mantissa and exponent nearest to a ratio, or nothing when the format has no such number. -/
def Format.round? (f : Format) (num den : Nat) : Option (Nat × Int) :=
  if num = 0 then some (0, f.least)
  else
    let exponent := f.exponentOf num den
    let (n, d) := Ratio.scale 2 num den exponent
    let mantissa := Ratio.roundHalfEven n d
    let (mantissa, exponent) :=
      if mantissa = Nat.pow 2 f.precision then (Nat.pow 2 (f.precision - 1), exponent + 1)
      else (mantissa, exponent)
    if f.greatest < exponent then none else some (mantissa, exponent)

/-- The exponent of ten beyond which no decimal lies within the range of a format here. -/
def decimalLimit : Nat := 400

/-- The number of a format nearest to a decimal, or nothing when the decimal is out of range.
A decimal whose power of ten is far outside the range is settled without computing the power. -/
def Format.ofNumeral? (f : Format) (x : Numeral) : Option Binary :=
  let rounded :=
    if x.coefficient = 0 then some (0, f.least)
    else if (decimalLimit : Int) < x.exponent then none
    else if x.exponent + x.coefficient.log2 + 1 < -(decimalLimit : Int) then some (0, f.least)
    else
      let (num, den) := Ratio.scale 10 x.coefficient 1 (-x.exponent)
      f.round? num den
  rounded.map fun (mantissa, exponent) => .finite x.negative mantissa exponent

end Binary

end Scaffold
