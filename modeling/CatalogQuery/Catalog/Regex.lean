/-!
# Like patterns as regular expressions

A `like` pattern can also be handed to a regular expression engine. `Like.toRegex` writes `%` as
`.*`, `_` as `.` and every other character as itself, escaped with a backslash where the regex
syntax gives it a meaning, between `(?s)^` and `$`: the flag `s` lets `.` match a line break too,
and the anchors make the whole text match.

`Regex.parse` reads the part of the regex syntax that such a text is written in: the flag group
`(?s)`, the anchors `^` and `$`, `.`, a character (escaped when it has a meaning), and a `*` after
`.` or a character. Anything else is outside that part, and it fails there.
-/

namespace CatalogQuery

namespace Regex

/-- What one character of text is tested against. -/
inductive Atom where
  /-- The character itself. -/
  | lit (c : Char)
  /-- `.`: any character, and a line break only when dot-all is set. -/
  | dot
  deriving DecidableEq, Repr

/-- One step of a regular expression read left to right. -/
inductive Node where
  | atom (a : Atom)
  /-- `a*`: any number of characters, each passing `a`. -/
  | star (a : Atom)
  /-- `^`: the start of the text. -/
  | start
  /-- `$`: the end of the text. -/
  | finish
  /-- `(?s)`: dot-all from here on. -/
  | setDotAll
  deriving DecidableEq, Repr

/-- The characters with a meaning in regex syntax; written after a backslash, each stands for
itself. -/
def metaChars : List Char :=
  ['\\', '.', '+', '*', '?', '(', ')', '|', '[', ']', '\x7b', '\x7d', '^', '$', '#', '&', '-', '~']

def isMeta (c : Char) : Bool := metaChars.contains c

/-- A character as regex syntax that matches only itself. -/
def escape (c : Char) : String := if isMeta c then "\\" ++ c.toString else c.toString

/-- Reads regex syntax of the part described above, or fails outside it. -/
def parse : List Char → Option (List Node)
  | [] => some []
  | '(' :: '?' :: 's' :: ')' :: rest => (parse rest).map (.setDotAll :: ·)
  | '^' :: rest => (parse rest).map (.start :: ·)
  | '$' :: rest => (parse rest).map (.finish :: ·)
  | '.' :: '*' :: rest => (parse rest).map (.star .dot :: ·)
  | '.' :: rest => (parse rest).map (.atom .dot :: ·)
  | '\\' :: c :: '*' :: rest => if isMeta c then (parse rest).map (.star (.lit c) :: ·) else none
  | '\\' :: c :: rest => if isMeta c then (parse rest).map (.atom (.lit c) :: ·) else none
  | c :: '*' :: rest => if isMeta c then none else (parse rest).map (.star (.lit c) :: ·)
  | c :: rest => if isMeta c then none else (parse rest).map (.atom (.lit c) :: ·)

end Regex

namespace Like

/-- The regex text of one pattern character. -/
def regexPiece (c : Char) : String :=
  if c = '%' then ".*" else if c = '_' then "." else Regex.escape c

/-- A pattern as an anchored regular expression whose `.` also matches a line break. -/
def toRegex (pattern : String) : String :=
  pattern.toList.foldl (fun re c => re ++ regexPiece c) "(?s)^" ++ "$"

end Like

end CatalogQuery
