import LivePage.Text.Character
import LivePage.Text.Unprintable

/-!
# Quoted text

`Text.quoted` shows a text in double quotes so that every character of it can be told: quotes,
backslashes and line breaks are escaped, and what has no form of its own is written by number.
-/

namespace LivePage

namespace Text

/-- Whether a character is shown as it is, apart from escapes. -/
def isPrintable (c : Char) : Bool := 0x20 ≤ c.toNat && !inRanges unprintableRanges c.toNat

/-- The digits of a code point in hexadecimal. -/
def hexDigits (n : Nat) : List Char := Nat.toDigits 16 n

/-- A character of a quoted text. -/
def quotedChar (c : Char) : List Char :=
  if c = '\x00' then ['\\', '0']
  else if c = '\t' then ['\\', 't']
  else if c = '\r' then ['\\', 'r']
  else if c = '\n' then ['\\', 'n']
  else if c = '\x22' then ['\\', '\x22']
  else if c = '\\' then ['\\', '\\']
  else if isPrintable c then [c]
  else ['\\', 'u', '\x7b'] ++ hexDigits c.toNat ++ ['\x7d']

/-- A text in double quotes. -/
def quoted (s : String) : String :=
  "\"" ++ String.ofList (s.toList.flatMap quotedChar) ++ "\""

end Text

end LivePage
