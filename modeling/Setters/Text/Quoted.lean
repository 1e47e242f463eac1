import Setters.Text.Classes

/-!
# Quoted text

How a text is shown inside a message: between double quotes, with a backslash before quotes and
backslashes, short escapes for the usual controls, and the number of a character in hexadecimal
where the character itself would not show.
-/

namespace Setters.Text

def quotedChar (c : Char) : List Char :=
  if c = '"' then ['\\', '"']
  else if c = '\\' then ['\\', '\\']
  else if c = '\n' then ['\\', 'n']
  else if c = '\r' then ['\\', 'r']
  else if c = '\t' then ['\\', 't']
  else if c = '\x00' then ['\\', '0']
  else if isPrintable c && !isExtending c then [c]
  else '\\' :: 'u' :: '\x7b' :: (Nat.toDigits 16 c.toNat ++ ['\x7d'])

def quoted (text : String) : String :=
  String.ofList ('"' :: (text.toList.flatMap quotedChar ++ ['"']))

end Setters.Text
