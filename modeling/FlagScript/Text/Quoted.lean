import FlagScript.Text.Hidden

/-!
# Text shown in messages

A message quotes a character or a text so that every character of it can be seen: the quote and
the backslash stand behind a backslash, and what cannot be shown is written as a letter or a number.
-/

namespace FlagScript.Text

/-- Digits of a number in base sixteen, in lower case. -/
def hexDigits (n : Nat) : List Char := Nat.toDigits 16 n

/-- A character as it stands between two characters `quote`. -/
def shown (quote c : Char) : List Char :=
  if c == '\x00' then ['\\', '0']
  else if c == '\t' then ['\\', 't']
  else if c == '\r' then ['\\', 'r']
  else if c == '\n' then ['\\', 'n']
  else if c == '\\' || c == quote then ['\\', c]
  else if c == ' ' then [c]
  else if hidden.contains c then '\\' :: 'u' :: '\x7b' :: hexDigits c.toNat ++ ['\x7d']
  else [c]

/-- A character between single quotes. -/
def quoteChar (c : Char) : String := String.ofList ('\x27' :: shown '\x27' c ++ ['\x27'])

/-- A text between double quotes. -/
def quoteText (s : String) : String :=
  String.ofList ('"' :: s.toList.flatMap (shown '"') ++ ['"'])

end FlagScript.Text
