import WasiHost.Text.Graphic
import WasiHost.Text.Numeral

/-!
# Quoted texts

How a text is shown in the log so that every character of it can be told: between double quotes,
with escapes for the double quote, the backslash, and what is not graphic. -/

namespace WasiHost

namespace Quoted

/-- How a character is written in a quoted text. -/
def escape (c : Char) : List Char :=
  if c = '\x00' then ['\\', '0']
  else if c = '\t' then ['\\', 't']
  else if c = '\r' then ['\\', 'r']
  else if c = '\n' then ['\\', 'n']
  else if c = '\\' ∨ c = '"' then ['\\', c]
  else if isGraphic c then [c]
  else ['\\', 'u', '\x7b'] ++ Numeral.hexDigits c.toNat ++ ['\x7d']

end Quoted

/-- A text between quotes. -/
def quoted (text : String) : String :=
  String.ofList ('"' :: text.toList.flatMap Quoted.escape ++ ['"'])

end WasiHost
