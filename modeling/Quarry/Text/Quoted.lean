/-
# Texts quoted in messages

* `mention` — a text in quotation marks, in which every character can be seen: the mark, the
  backslash and the usual control characters have escapes of one letter, and other characters that
  leave no mark or join the one before them are written by their code.
-/
import Quarry.Text.Digits
import Quarry.Text.Printable

namespace Quarry.Text

/-- A character as a message shows it. -/
def mentionChar (c : Char) : List Char :=
  if c = Char.ofNat 0 then ['\\', '0']
  else if c = '\t' then ['\\', 't']
  else if c = '\r' then ['\\', 'r']
  else if c = '\n' then ['\\', 'n']
  else if c = '"' then ['\\', '"']
  else if c = '\\' then ['\\', '\\']
  else if isJoining c || !isPrintable c then
    '\\' :: 'u' :: '{' :: Digits.hexChars c.toNat ++ ['}']
  else [c]

/-- A text in quotation marks as a message shows it. -/
def mention (s : String) : String :=
  String.ofList ('"' :: s.toList.flatMap mentionChar ++ ['"'])

end Quarry.Text
