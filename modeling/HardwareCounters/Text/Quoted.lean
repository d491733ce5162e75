/-
# Quoted texts

A quoted text stands between two `"`.  Inside, a quote and a backslash are preceded by a backslash,
the usual control characters have a letter after a backslash, and any other character that would
not be seen is given by its code point, as in `\u` followed by the hexadecimal number in braces.
-/
import HardwareCounters.Text.UnprintableTable

namespace HardwareCounters

namespace Text

/-- How a character is written between quotes. -/
def quoteChar (c : Char) : Text :=
  if c = '"' then ['\\', '"']
  else if c = '\\' then ['\\', '\\']
  else if c = '\n' then ['\\', 'n']
  else if c = '\t' then ['\\', 't']
  else if c = '\r' then ['\\', 'r']
  else if c = Char.ofNat 0 then ['\\', '0']
  else if isUnprintable c then ['\\', 'u', '{'] ++ Nat.toDigits 16 c.toNat ++ ['}']
  else [c]

/-- The text between quotes. -/
def quoted (t : Text) : Text := '"' :: t.flatMap quoteChar ++ ['"']

end Text

end HardwareCounters
