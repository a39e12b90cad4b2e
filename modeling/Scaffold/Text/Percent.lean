import Scaffold.Text.Hex

/-!
# Percent escapes

An address writes a byte as a percent sign with two hexadecimal digits.  There
are two readings.  In a *form* a percent sign that starts no escape is refused,
and a plus sign stands for a space.  In an *address* such a percent sign stands
for itself, and an escaped null byte ends the text.

Both readings give bytes, since one escape may be a part of a character.
-/

namespace Scaffold.Text

/-- The text with the given bytes.  When they are no text, each byte beyond ASCII is replaced. -/
def ofBytes (bytes : List UInt8) : String :=
  match String.fromUTF8? ⟨bytes.toArray⟩ with
  | some text => text
  | none => String.ofList (bytes.map fun b =>
      if b < 0x80 then Char.ofNat b.toNat else Char.ofNat 0xFFFD)

/-- The byte with two hexadecimal digits. -/
def hexByte? (a b : Char) : Option UInt8 := do
  let high ← hexValue? a
  let low ← hexValue? b
  some (UInt8.ofNat (high * 16 + low))

/-- The bytes of a text in a form. -/
def formBytes? : List Char → Option (List UInt8)
  | [] => some []
  | '%' :: a :: b :: cs => do
    let byte ← hexByte? a b
    let bytes ← formBytes? cs
    some (byte :: bytes)
  | c :: cs =>
    if c = '%' then none
    else do
      let bytes ← formBytes? cs
      some (String.utf8EncodeChar (if c = '+' then ' ' else c) ++ bytes)

/-- The bytes of a text in an address. -/
def addressBytes : List Char → List UInt8
  | [] => []
  | '%' :: a :: b :: cs => match hexByte? a b with
    | some byte => if byte = 0 then [] else byte :: addressBytes cs
    | none => String.utf8EncodeChar '%' ++ addressBytes (a :: b :: cs)
  | c :: cs => String.utf8EncodeChar c ++ addressBytes cs

/-- A text in a form. -/
def readForm? (cs : List Char) : Option String := (formBytes? cs).map ofBytes

/-- A text in an address. -/
def readAddress (cs : List Char) : String := ofBytes (addressBytes cs)

/-- The name and the value of a parameter, parted by the first equals sign. -/
def cutParameter (cs : List Char) : List Char × List Char :=
  (cs.takeWhile (· ≠ '='), (cs.dropWhile (· ≠ '=')).drop 1)

end Scaffold.Text
