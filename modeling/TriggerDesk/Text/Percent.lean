/-!
# Percent encoding

An address holds only some characters of ASCII as they are. Any other byte is written as a
percent sign and two hexadecimal digits.
-/

namespace TriggerDesk.Text

/-- The digit of a number below sixteen. -/
def upperHexDigit (n : Nat) : Char := (Nat.digitChar n).toUpper

/-- A byte that cannot stand for itself. -/
def percentByte (byte : UInt8) : List Char :=
  ['%', upperHexDigit (byte.toNat / 16), upperHexDigit (byte.toNat % 16)]

/-- Writes a text so that the characters that are not `kept` are encoded. No character beyond
ASCII is kept. -/
def percentEncode (kept : Char → Bool) (text : String) : String :=
  String.ofList <| text.toList.flatMap fun c =>
    if 0x20 < c.toNat && c.toNat < 0x7F && kept c then [c]
    else (String.singleton c).toUTF8.data.toList.flatMap percentByte

/-- What the path of an address holds as it is. -/
def isPathChar (c : Char) : Bool := !("\"#<>?`\x7b\x7d".contains c)

/-- What the query of an address holds as it is. -/
def isQueryChar (c : Char) : Bool := !("\"#<>'".contains c)

end TriggerDesk.Text
