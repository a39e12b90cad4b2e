import Scaffold.Json.Quoted
import Scaffold.Log.Record
import Scaffold.Text.Blank
import Scaffold.Text.Quoted

/-!
# Writing log records

The mode of a run decides how its records are written.  In production they are
JSON objects, one a line.  Otherwise they are lines of `key=value` pairs.  Only
in development are records below the information level written.

In a text line a key or value is quoted when it is empty or when it holds a
space, a quote, an equals sign, a control or anything else that would be hard to
read.  A backslash alone is no reason to quote.
-/

namespace Scaffold.Log

/-- How the records of a run are written. -/
inductive Mode where
  | development
  | production
  | standard
  deriving DecidableEq, Repr

/-- The mode that a setting names.  Any other name is the standard mode. -/
def Mode.ofName (name : String) : Mode :=
  if name = "development" then .development
  else if name = "production" then .production
  else .standard

/-- The least level that is written in a mode. -/
def Mode.least : Mode → Level
  | .development => .debug
  | .production | .standard => .info

/-! ## Text lines -/

/-- Whether a character cannot stand in a text line by itself. -/
def needsQuotes (c : Char) : Bool :=
  if c.toNat < 0x80 then c = ' ' || c = '=' || c = '"' || c.toNat < 0x20
  else c.toNat == 0xFFFD || Text.isBlank c || !Text.isPrintable c

/-- A key or value in a text line. -/
def textField (s : String) : String :=
  if s = "" ∨ s.toList.any needsQuotes then Text.quote s else s

/-- The value of an attribute in a text line. -/
def Value.textField : Value → String
  | .text s => Log.textField s
  | v => v.plain

/-- A record as a text line. -/
def Record.textLine (r : Record) : String :=
  "level=" ++ r.level.text ++ " msg=" ++ textField r.message
    ++ String.join (r.attributes.map fun (k, v) => " " ++ textField k ++ "=" ++ v.textField) ++ "\n"

/-! ## JSON lines -/

/-- The value of an attribute in a JSON line. -/
def Value.jsonField : Value → String
  | .text s => Json.quote s
  | v => v.plain

/-- A record as a JSON line. -/
def Record.jsonLine (r : Record) : String :=
  "\x7b\"level\":" ++ Json.quote r.level.text ++ ",\"msg\":" ++ Json.quote r.message
    ++ String.join (r.attributes.map fun (k, v) => "," ++ Json.quote k ++ ":" ++ v.jsonField)
    ++ "\x7d\n"

/-! ## Records in a mode -/

/-- A record as it is written in a mode, empty when it is not written. -/
def Record.line (mode : Mode) (r : Record) : String :=
  if r.level.value < mode.least.value then ""
  else match mode with
    | .production => r.jsonLine
    | .development | .standard => r.textLine

/-- Records as they are written in a mode. -/
def lines (mode : Mode) (records : List Record) : String :=
  String.join (records.map (Record.line mode))

end Scaffold.Log
