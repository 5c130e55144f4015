import Heartbeat.Text.Quoted.Table

/-!
# Quoted text

A quoted text stands between double quotes. Inside, a double quote and a backslash follow a
backslash, tab, line feed, carriage return and NUL are written `\t`, `\n`, `\r` and `\0`, and a
character without a visible form of its own is written by its code point in braces.

* `quote`: the quoted form of a text.
* `quoteList`: quoted texts in square brackets, separated by commas.
-/

namespace Heartbeat.Text

/-- One character of quoted text. -/
def quoteChar (c : Char) : List Char :=
  if c == '"' then ['\\', '"']
  else if c == '\\' then ['\\', '\\']
  else if c == '\t' then ['\\', 't']
  else if c == '\n' then ['\\', 'n']
  else if c == '\r' then ['\\', 'r']
  else if c.toNat == 0 then ['\\', '0']
  else if hiddenRanges.contains c then
    ['\\', 'u', '\x7b'] ++ Nat.toDigits 16 c.toNat ++ ['\x7d']
  else [c]

/-- The quoted form of a text. -/
def quote (s : String) : String :=
  String.ofList ('"' :: (s.toList.flatMap quoteChar ++ ['"']))

/-- Quoted texts in square brackets, separated by a comma and a space. -/
def quoteList (texts : List String) : String :=
  "[" ++ ", ".intercalate (texts.map quote) ++ "]"

end Heartbeat.Text
