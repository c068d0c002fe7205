import CatalogQuery.Text.Printable
import CatalogQuery.Text.GraphemeExtend

/-!
# Quoted text

The diagnostic form of a string: in double quotes, with the NUL, tab, carriage return and line
feed characters, the backslash and the double quote written as backslash escapes, and every
character that is not printable or that extends a grapheme written as `\u` followed by its code
point in lowercase hexadecimal between braces. All other characters stand for themselves, so
the form shows exactly which characters a text holds.
-/

namespace CatalogQuery.Text

/-- Lowercase hexadecimal digits of `n`, without leading zeros. -/
def hexDigits (n : Nat) : String := String.ofList (Nat.toDigits 16 n)

/-- The quoted form of one character. -/
def quotedChar (c : Char) : String :=
  if c = '\x00' then "\\0"
  else if c = '\t' then "\\t"
  else if c = '\r' then "\\r"
  else if c = '\n' then "\\n"
  else if c = '\\' then "\\\\"
  else if c = '"' then "\\\""
  else if isGraphemeExtend c || !isPrintable c then "\\u\x7b" ++ hexDigits c.toNat ++ "\x7d"
  else c.toString

/-- A text in double quotes with its special characters escaped. -/
def quoted (s : String) : String :=
  "\"" ++ String.join (s.toList.map quotedChar) ++ "\""

end CatalogQuery.Text
