import Unwind.Text.Invisible
import Unwind.Text.JoiningMark

/-!
# Quoted text

A string as a literal in double quotes. Quotes, backslashes and line controls have escapes of their
own. A character that would not be seen by itself, because it has no shape or is a mark on the one
before, is written by its number in lowercase hexadecimal. All other characters stand for
themselves.
-/

namespace Unwind.Text

/-- Whether a character can be seen by itself. -/
def isShown (c : Char) : Bool :=
  !isJoiningMark c && !isInvisible c

/-- How one character is written between double quotes. -/
def escape (c : Char) : List Char :=
  if c = '\x22' then ['\\', '\x22']
  else if c = '\\' then ['\\', '\\']
  else if c = '\n' then ['\\', 'n']
  else if c = '\r' then ['\\', 'r']
  else if c = '\t' then ['\\', 't']
  else if c = '\x00' then ['\\', '0']
  else if isShown c then [c]
  else ['\\', 'u', '\x7b'] ++ Nat.toDigits 16 c.toNat ++ ['\x7d']

def quoted (s : String) : String :=
  String.ofList ('\x22' :: s.toList.flatMap escape ++ ['\x22'])

/-- Parts between brackets, separated by commas. -/
def bracketed (parts : List String) : String :=
  "[" ++ ", ".intercalate parts ++ "]"

end Unwind.Text
