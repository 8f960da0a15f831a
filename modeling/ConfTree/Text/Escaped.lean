/-
Module: ConfTree.Text.Escaped
Purpose: Text between quotes in which every character can be seen.
Main exports:
  Text.escaped
-/
import ConfTree.Text.Unprintable

namespace ConfTree.Text

/-!
Diagnostics show a text between quotes.  A quote, a backslash and the usual control
characters have short escapes; any other character that cannot be seen on its own is
named by its code point in hexadecimal digits.
-/

/-- A character as diagnostics show it between quotes. -/
def escapeChar (c : Char) : List Char :=
  if c = '"' then ['\\', '"']
  else if c = '\\' then ['\\', '\\']
  else if c = '\n' then ['\\', 'n']
  else if c = '\r' then ['\\', 'r']
  else if c = '\t' then ['\\', 't']
  else if c = '\x00' then ['\\', '0']
  else if isUnprintable c then
    '\\' :: 'u' :: '\x7b' :: Nat.toDigits 16 c.toNat ++ ['\x7d']
  else [c]

/-- A text as diagnostics show it. -/
def escaped (text : String) : String :=
  String.ofList ('"' :: text.toList.flatMap escapeChar ++ ['"'])

end ConfTree.Text
