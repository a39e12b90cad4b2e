import Scaffold.Json.Quoted
import Scaffold.Json.Reader
import Scaffold.Store.History

/-!
# Ledgers

A ledger is a history as the text of a file: a first line that says what the
file is, and then one line for each stored unit, oldest first.  The line of a
unit is a JSON array of its name, its text and its clock reading.
-/

namespace Scaffold.History

/-- The first line of a ledger. -/
def ledgerMark : String := "units"

/-- The line of a stored unit. -/
def ledgerLine (r : Row) : String :=
  "[" ++ Json.quote r.dest ++ "," ++ Json.quote r.code ++ "," ++ toString r.time ++ "]"

/-- The ledger of a history. -/
def toLedger (h : History) : String :=
  String.join ((ledgerMark :: h.rows.map ledgerLine).map (· ++ "\n"))

/-- The history with the stored units on the lines of a ledger added. -/
def addLines (h : History) : List String → Option History
  | [] | [""] => some h
  | line :: lines => match Json.read? line with
    | some (.array [.string dest, .string code, .number n]) =>
      let time : Int := if n.negative then -n.coefficient else n.coefficient
      (h.record time dest code).addLines lines
    | _ => none

/-- The history of a ledger, or nothing when the text is not a ledger. -/
def ofLedger? (text : String) : Option History :=
  match text.splitOn "\n" with
  | [] => none
  | mark :: lines => if mark = ledgerMark then History.addLines {} lines else none

end Scaffold.History
