/-!
# Histories of units

A history keeps every unit that was ever stored, oldest first.  A row holds the
name a unit was stored under, its text, its size and the clock reading at which
it was stored.  The latest unit of a name is the one with the greatest clock
reading, and of several such the one that was stored last.
-/

namespace Scaffold

/-- A stored unit. -/
structure Row where
  /-- The name it was stored under. -/
  dest : String
  /-- Its text. -/
  code : String
  /-- The size of its text in bytes. -/
  size : Nat
  /-- The clock reading when it was stored. -/
  time : Int
  deriving DecidableEq, Repr

/-- The stored units, oldest first. -/
structure History where
  rows : List Row := []
  deriving DecidableEq, Repr

namespace History

/-- A history with one more unit. -/
def record (h : History) (time : Int) (dest code : String) : History where
  rows := h.rows ++ [⟨dest, code, code.utf8ByteSize, time⟩]

/-- The later of two rows, where the second one was stored after the first. -/
def later (best : Option Row) (row : Row) : Option Row :=
  match best with
  | none => some row
  | some b => if b.time ≤ row.time then some row else some b

/-- The units stored under a name. -/
def named (h : History) (dest : String) : List Row := h.rows.filter (·.dest = dest)

/-- The text of the latest unit stored under a name. -/
def latest? (h : History) (dest : String) : Option String :=
  ((h.named dest).foldl later none).map Row.code

/-- How many units were stored under a name. -/
def count (h : History) (dest : String) : Nat := (h.named dest).length

theorem named_record (h : History) (time : Int) (dest code other : String) :
    (h.record time dest code).named other =
      h.named other ++ (if dest = other then [⟨dest, code, code.utf8ByteSize, time⟩] else []) := by
  by_cases hd : dest = other <;> simp [named, record, hd]

end History

end Scaffold
