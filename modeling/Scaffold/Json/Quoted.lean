import Scaffold.Text.Quoted

/-!
# JSON strings

A text as a JSON string on one line.  Quotes, backslashes, controls and the two
line separators of Unicode are escaped, and every other character stands for
itself.
-/

namespace Scaffold.Json

/-- How a character is written in a JSON string. -/
def quoteChar (c : Char) : List Char :=
  if c = '"' || c = '\\' then ['\\', c]
  else if c = '\n' then ['\\', 'n']
  else if c = '\r' then ['\\', 'r']
  else if c = '\t' then ['\\', 't']
  else if c.toNat < 0x20 || c.toNat == 0x2028 || c.toNat == 0x2029 then
    '\\' :: 'u' :: Text.hex 4 c.toNat
  else [c]

/-- A text as a JSON string. -/
def quote (s : String) : String := String.ofList ('"' :: s.toList.flatMap quoteChar ++ ['"'])

end Scaffold.Json
