/-!
# Numerals

Decimal, hexadecimal and octal numerals as traces show them, in lower case and without leading zeros
unless a fixed count of digits is asked for.
-/

namespace WasiHost

namespace Numeral

/-- The digit for a number below sixteen. -/
def digit (n : Nat) : Char :=
  if n < 10 then Char.ofNat ('0'.toNat + n) else Char.ofNat ('a'.toNat + (n - 10))

/-- The hexadecimal digits of a number. -/
def hexDigits (n : Nat) : List Char :=
  if n < 16 then [digit n] else hexDigits (n / 16) ++ [digit (n % 16)]

/-- A number in hexadecimal, with the usual mark before it. -/
def hex (n : Nat) : String :=
  "0x" ++ String.ofList (hexDigits n)

/-- The three octal digits of an octet. -/
def octalFixed (b : UInt8) : List Char :=
  [digit (b.toNat / 64), digit (b.toNat / 8 % 8), digit (b.toNat % 8)]

/-- The octal digits of an octet, as few as there can be. -/
def octal (b : UInt8) : List Char :=
  if b.toNat < 8 then [digit b.toNat]
  else if b.toNat < 64 then [digit (b.toNat / 8), digit (b.toNat % 8)]
  else octalFixed b

end Numeral

end WasiHost
