import ResonantGraph.Text.Quoted.Data

/-!
# Quoted text

Quoted text stands between double quotes and shows every character in a visible form. Tabs and
line ends, the null character, the backslash and the double quote have a short escape; what has no
visible form of its own is written by its code point in hexadecimal. A single quote stands for
itself.
-/

namespace ResonantGraph.Text

/-- The hexadecimal digits of a number, in lower case and without leading zeros. -/
def hexDigits (n : Nat) : List Char := Nat.toDigits 16 n

/-- A character by its code point. -/
def escapeCode (c : Char) : List Char :=
  ['\\', 'u', '\x7b'] ++ hexDigits c.toNat ++ ['\x7d']

/-- The visible form of a character between double quotes. -/
def visible (c : Char) : List Char :=
  if c = '\x00' then ['\\', '0']
  else if c = '\t' then ['\\', 't']
  else if c = '\r' then ['\\', 'r']
  else if c = '\n' then ['\\', 'n']
  else if c = '\\' then ['\\', '\\']
  else if c = '"' then ['\\', '"']
  else if extending.holds c || ignorable.holds c || invisible.holds c then escapeCode c
  else [c]

/-- A text between double quotes. -/
def quote (text : String) : String :=
  String.ofList ('"' :: text.toList.flatMap visible ++ ['"'])

end ResonantGraph.Text
