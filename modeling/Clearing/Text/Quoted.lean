import Clearing.Text.Visible

/-!
# Quoted text

A text is quoted for a message: double quotes around it, a backslash before a
double quote or a backslash inside, short names for the usual control
characters, and the number in hexadecimal for every other hidden character.
-/

namespace Clearing.Text

def quoteChar (c : Char) : String :=
  if c = '"' then "\\\""
  else if c = '\\' then "\\\\"
  else if c = '\t' then "\\t"
  else if c = '\n' then "\\n"
  else if c = '\r' then "\\r"
  else if c.toNat = 0 then "\\0"
  else if isHidden c then "\\u\x7b" ++ String.ofList (Nat.toDigits 16 c.toNat) ++ "\x7d"
  else c.toString

/-- The text between double quotes, with every character in a visible form. -/
def quote (s : String) : String :=
  "\"" ++ String.join (s.toList.map quoteChar) ++ "\""

end Clearing.Text
