/-!
# Sizes

A size in bytes is written in the largest decimal unit that it reaches, with one
decimal below ten units and with none from there on.  The size is first rounded
to tenths of the unit, a half upwards, and the tenths are then rounded to a
whole number, a half to the even neighbour.  Below ten bytes the plain number is
written.
-/

namespace Scaffold.Size

/-- The units of bytes, each a thousand times the one before. -/
def units : List String := ["B", "kB", "MB", "GB", "TB", "PB", "EB"]

/-- The largest unit that a size reaches, as its value and its name. -/
def unitOf (n : Nat) : Nat → List String → Nat × String
  | value, [] => (value, "")
  | value, [name] => (value, name)
  | value, name :: rest => if n < value * 1000 then (value, name) else unitOf n (value * 1000) rest

/-- A number of tenths rounded to a whole number, a half to the even neighbour. -/
def wholeOfTenths (tenths : Nat) : Nat :=
  let whole := tenths / 10
  let rest := tenths % 10
  if rest < 5 ∨ (rest = 5 ∧ whole % 2 = 0) then whole else whole + 1

/-- A size in bytes as text. -/
def text (n : Nat) : String :=
  if n < 10 then toString n ++ " B"
  else
    let (value, name) := unitOf n 1 units
    let tenths := (20 * n + value) / (2 * value)
    if tenths < 100 then toString (tenths / 10) ++ "." ++ toString (tenths % 10) ++ " " ++ name
    else toString (wholeOfTenths tenths) ++ " " ++ name

end Scaffold.Size
