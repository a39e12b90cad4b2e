import Scaffold.Text.Hex
import Scaffold.Text.Printable

/-!
# Quoted text

A quoted text is a double-quoted Go string literal on one line.  A quote and a
backslash are written after a backslash.  A printable character stands for
itself.  The controls that have a letter of their own take it (`\n`, `\t`, ...).
Every other character is written by its code point in lower-case hexadecimal:
two digits after `\x` for the other ASCII controls, four after `\u` below
U+10000, and eight after `\U` from there on.
-/

namespace Scaffold.Text

/-- The letter of a control character that has one. -/
def controlLetter? (c : Char) : Option Char :=
  match c.toNat with
  | 7 => some 'a'
  | 8 => some 'b'
  | 9 => some 't'
  | 10 => some 'n'
  | 11 => some 'v'
  | 12 => some 'f'
  | 13 => some 'r'
  | _ => none

/-- How one character is written between the quotes. -/
def quoteChar (c : Char) : List Char :=
  if c = '"' || c = '\\' then ['\\', c]
  else if isPrintable c then [c]
  else match controlLetter? c with
    | some letter => ['\\', letter]
    | none =>
      if c.toNat < 0x80 then '\\' :: 'x' :: hex 2 c.toNat
      else if c.toNat < 0x10000 then '\\' :: 'u' :: hex 4 c.toNat
      else '\\' :: 'U' :: hex 8 c.toNat

/-- The characters of a quoted text, quotes included. -/
def quoteChars (cs : List Char) : List Char := '"' :: cs.flatMap quoteChar ++ ['"']

/-- A text as a double-quoted Go string literal. -/
def quote (s : String) : String := String.ofList (quoteChars s.toList)

end Scaffold.Text
