import BucketAdmin.Text.Printable

/-!
# Quoted text in messages

A text shown inside a message stands in double quotes. Quotes, backslashes and the common control
characters are escaped by a letter; a character that does not print on its own is shown by its code
point in braces.
-/

namespace BucketAdmin.Text

/-- A character shown by its code point. -/
def codePoint (c : Char) : String :=
  "\\u\x7b" ++ String.ofList (Nat.toDigits 16 c.toNat) ++ "\x7d"

/-- A character inside quoted text. -/
def quotedChar (c : Char) : String :=
  if c = '\x00' then "\\0"
  else if c = '\t' then "\\t"
  else if c = '\r' then "\\r"
  else if c = '\n' then "\\n"
  else if c = '"' then "\\\""
  else if c = '\\' then "\\\\"
  else if standsAlone c then c.toString
  else codePoint c

/-- A text in double quotes. -/
def quoted (s : String) : String := "\"" ++ String.join (s.toList.map quotedChar) ++ "\""

end BucketAdmin.Text
