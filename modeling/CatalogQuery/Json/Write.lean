import CatalogQuery.Json.Number

/-!
# Compact JSON text

`Json.render` writes a value with no blank between tokens. Members come out in the order the
value lists them. In strings the double quote and the backslash are escaped, the control
characters backspace, form feed, line feed, carriage return and tab get their short escapes, the
other characters below U+0020 are written `\u00xx` in lowercase hexadecimal, and every other
character stands for itself.
-/

namespace CatalogQuery

/-- The escaped form of one character inside a JSON string. -/
def jsonEscapeChar (c : Char) : String :=
  if c = '"' then "\\\""
  else if c = '\\' then "\\\\"
  else if c = '\x08' then "\\b"
  else if c = '\x0c' then "\\f"
  else if c = '\n' then "\\n"
  else if c = '\r' then "\\r"
  else if c = '\t' then "\\t"
  else if c.toNat < 0x20 then
    let hex := Nat.toDigits 16 c.toNat
    "\\u00" ++ String.ofList (List.replicate (2 - hex.length) '0' ++ hex)
  else c.toString

/-- A text as a JSON string literal. -/
def jsonQuote (s : String) : String :=
  "\"" ++ String.join (s.toList.map jsonEscapeChar) ++ "\""

namespace Json

mutual

/-- The compact text of a JSON value. -/
def render : Json → String
  | .null => "null"
  | .bool b => if b then "true" else "false"
  | .number n => n.render
  | .string s => jsonQuote s
  | .array items => "[" ++ ",".intercalate (renderItems items) ++ "]"
  | .object members => "\x7b" ++ ",".intercalate (renderMembers members) ++ "\x7d"

/-- The texts of array items, in order. -/
def renderItems : List Json → List String
  | [] => []
  | j :: rest => render j :: renderItems rest

/-- The texts of object members as `"key":value`, in order. -/
def renderMembers : List (String × Json) → List String
  | [] => []
  | (k, v) :: rest => (jsonQuote k ++ ":" ++ render v) :: renderMembers rest

end

end Json

end CatalogQuery
