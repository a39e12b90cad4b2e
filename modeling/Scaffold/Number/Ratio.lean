/-!
# Ratios

Ratios of natural numbers, as numerator and denominator, for exact arithmetic
with numbers that are not whole.
-/

namespace Scaffold.Ratio

/-- The ratio `num / den` divided by `base ^ exponent`. -/
def scale (base num den : Nat) (exponent : Int) : Nat × Nat :=
  let power := base.pow exponent.natAbs
  if exponent < 0 then (num * power, den) else (num, den * power)

/-- A ratio rounded to the nearest natural number, a half to the even neighbour. -/
def roundHalfEven (num den : Nat) : Nat :=
  let floor := num / den
  let twice := 2 * (num % den)
  if twice < den then floor
  else if den < twice then floor + 1
  else if floor % 2 = 0 then floor else floor + 1

end Scaffold.Ratio
