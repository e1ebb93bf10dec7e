import Switchboard.Octets
import Switchboard.Text.Unprintable

/-!
# Quoted text

A text between double quotes in which every character is visible: quotes and backslashes are
escaped, common controls have a letter, and any other unprintable character is written by its code
point.

## Main definitions

- `quoteChar` — one character as it stands between the quotes
- `quoted` — the text between quotes
-/

namespace Switchboard.Text

/-- A character as it stands inside a quoted text. -/
def quoteChar (c : Char) : List Char :=
  if c = '"' then ['\\', '"']
  else if c = '\\' then ['\\', '\\']
  else if c = '\n' then ['\\', 'n']
  else if c = '\r' then ['\\', 'r']
  else if c = '\t' then ['\\', 't']
  else if c = '\x00' then ['\\', '0']
  else if isUnprintable c then "\\u\x7b".toList ++ (hexText c.toNat).toList ++ ['\x7d']
  else [c]

/-- The text between double quotes, every character visible. -/
def quoted (s : String) : String :=
  String.ofList ('"' :: s.toList.flatMap quoteChar ++ ['"'])

end Switchboard.Text
