import Delegation.Text.Hidden
/-!
# Quoted text

A text between double quotes, so that its ends, its quotes and its hidden characters can be seen.
Quote and backslash take a backslash; line feed, carriage return, tab and null have a letter of
their own; any other hidden character is its number in lower-case hexadecimal digits between braces.
-/

namespace Delegation.Text

/-- One character as it stands between the quotes. -/
def quotedChar (c : Char) : List Char :=
  if c = '"' then ['\\', '"']
  else if c = '\\' then ['\\', '\\']
  else if c = '\n' then ['\\', 'n']
  else if c = '\r' then ['\\', 'r']
  else if c = '\t' then ['\\', 't']
  else if c = '\x00' then ['\\', '0']
  else if isHidden c then ['\\', 'u', '\x7b'] ++ Nat.toDigits 16 c.toNat ++ ['\x7d']
  else [c]

/-- The quoted form of a text. -/
def quoted (s : String) : String :=
  String.ofList ('"' :: s.toList.flatMap quotedChar ++ ['"'])

-- A letter is written as itself, a quote with a backslash, a combining accent by its number.
example : quoted "a\"\u0301" = "\"a\\\"\\u\x7b301\x7d\"" := by decide

end Delegation.Text
