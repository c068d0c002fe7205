import CatalogQuery.Json.Value
import CatalogQuery.Json.Number
import CatalogQuery.Text.Quoted

/-!
# Reading JSON text

A reader walks the UTF-8 bytes of a text with a cursor. Each failure is a `ReadFault` at a byte
offset, and its message names the line and column of that offset (the column counts bytes since
the last line feed). A fault is placed either at the cursor or one byte past it (for a fault
found by looking at the next byte), never past the end of the text.

Faults of the typed layer (a value of the wrong type, a missing or repeated member) are raised
without an offset; the value being read when they arise places them at the cursor, after it has
closed its bracket if the next byte does so.

Numbers follow the three shapes of `JsonNumber`: digits without point or exponent give an
unsigned integer while they fit 64 bits; a minus sign gives a signed one while it fits, and `-0`
is the double `-0.0`; anything else is a double made by scaling the integer digits by a table of
powers of ten, one multiplication or division per step of at most `10^308`. A double that
overflows is refused. Nesting deeper than 127 arrays and objects is refused.
-/

namespace CatalogQuery

/-- What a reader found where it wanted a value of another type. -/
inductive Unexpected where
  | bool (b : Bool)
  | unsigned (n : UInt64)
  | signed (n : Int64)
  | float (f : Float)
  | str (s : String)
  | unit
  | seq
  | map

/-- Adds `.0` to a number text that has no point. -/
def withPoint (s : String) : String :=
  if s.toList.contains '.' then s else s ++ ".0"

/-- How a found value is named in a message. -/
def Unexpected.describe : Unexpected → String
  | .bool b => "boolean `" ++ (if b then "true" else "false") ++ "`"
  | .unsigned n => "integer `" ++ toString n.toNat ++ "`"
  | .signed n => "integer `" ++ toString n.toInt ++ "`"
  | .float f => "floating point `" ++ withPoint (FloatLayout.plain.write f) ++ "`"
  | .str s => "string " ++ Text.quoted s
  | .unit => "null"
  | .seq => "sequence"
  | .map => "map"

/-- A number as a found value. -/
def JsonNumber.unexpected : JsonNumber → Unexpected
  | .nat n => .unsigned n
  | .neg n => .signed n
  | .float f => .float f

/-- Why a text could not be read. -/
inductive ReadFault where
  | eofWhileParsingList
  | eofWhileParsingObject
  | eofWhileParsingString
  | eofWhileParsingValue
  | expectedColon
  | expectedListCommaOrEnd
  | expectedObjectCommaOrEnd
  | expectedSomeIdent
  | expectedSomeValue
  | invalidEscape
  | invalidNumber
  | numberOutOfRange
  | controlCharacterInString
  | keyMustBeAString
  | loneLeadingSurrogate
  | trailingComma
  | trailingCharacters
  | unexpectedEndOfHexEscape
  | recursionLimitExceeded
  /-- A value of another type than the one wanted. -/
  | invalidType (found : Unexpected) (expected : String)
  /-- A sequence with too few items for a record. -/
  | invalidLength (length : Nat) (expected : String)
  /-- A member name that the record does not have. -/
  | unknownField (name : String) (expected : List String)
  | missingField (name : String)
  | duplicateField (name : String)

/-- Field names in a message: one, two joined by `or`, or a list after `one of`. -/
def fieldList : List String → String
  | [a] => "`" ++ a ++ "`"
  | [a, b] => "`" ++ a ++ "` or `" ++ b ++ "`"
  | names => "one of " ++ ", ".intercalate (names.map fun n => "`" ++ n ++ "`")

/-- The text of a fault, without its position. -/
def ReadFault.message : ReadFault → String
  | .eofWhileParsingList => "EOF while parsing a list"
  | .eofWhileParsingObject => "EOF while parsing an object"
  | .eofWhileParsingString => "EOF while parsing a string"
  | .eofWhileParsingValue => "EOF while parsing a value"
  | .expectedColon => "expected `:`"
  | .expectedListCommaOrEnd => "expected `,` or `]`"
  | .expectedObjectCommaOrEnd => "expected `,` or `\x7d`"
  | .expectedSomeIdent => "expected ident"
  | .expectedSomeValue => "expected value"
  | .invalidEscape => "invalid escape"
  | .invalidNumber => "invalid number"
  | .numberOutOfRange => "number out of range"
  | .controlCharacterInString => "control character (\\u0000-\\u001F) found while parsing a string"
  | .keyMustBeAString => "key must be a string"
  | .loneLeadingSurrogate => "lone leading surrogate in hex escape"
  | .trailingComma => "trailing comma"
  | .trailingCharacters => "trailing characters"
  | .unexpectedEndOfHexEscape => "unexpected end of hex escape"
  | .recursionLimitExceeded => "recursion limit exceeded"
  | .invalidType found expected => "invalid type: " ++ found.describe ++ ", expected " ++ expected
  | .invalidLength n expected => "invalid length " ++ toString n ++ ", expected " ++ expected
  | .unknownField name [] => "unknown field `" ++ name ++ "`, there are no fields"
  | .unknownField name expected => "unknown field `" ++ name ++ "`, expected " ++ fieldList expected
  | .missingField name => "missing field `" ++ name ++ "`"
  | .duplicateField name => "duplicate field `" ++ name ++ "`"

/-- A fault and, once known, the byte offset it is reported at. -/
structure ReadError where
  fault : ReadFault
  offset : Option Nat

/-- Line (from 1) and column (bytes since the last line feed) of a byte offset. -/
def lineColumn (input : ByteArray) (offset : Nat) : Nat × Nat :=
  let (line, start, _) := (input.toList.take offset).foldl
    (fun (line, start, i) b => if b == 10 then (line + 1, i + 1, i + 1) else (line, start, i + 1))
    (1, 0, 0)
  (line, offset - start)

/-- The message of a read error, with its line and column when it has an offset. -/
def ReadError.message (input : ByteArray) (e : ReadError) : String :=
  match e.offset with
  | none => e.fault.message
  | some i =>
    let (line, column) := lineColumn input i
    e.fault.message ++ " at line " ++ toString line ++ " column " ++ toString column

/-! ### Scanning numbers and strings

Scanners are pure functions of the bytes and a start offset that return what they read and the
offset after it.
-/

/-- A scanner's result: a value and the offset after it, or a placed fault. -/
abbrev Scan (α : Type) := Except ReadError (α × Nat)

/-- A fault at an offset. -/
def faultAt {α : Type} (offset : Nat) (f : ReadFault) : Except ReadError α :=
  .error ⟨f, some offset⟩

/-- A fault found by looking at the byte at `offset`: it is reported one byte further. -/
def faultPast {α : Type} (b : ByteArray) (offset : Nat) (f : ReadFault) : Except ReadError α :=
  faultAt (min (offset + 1) b.size) f

/-- Whether a byte is an ASCII digit. -/
def isDigit (c : UInt8) : Bool := 48 ≤ c && c ≤ 57

/-- The offset of the first byte at or after `i` that is not a blank (space, tab, line feed,
carriage return). -/
def skipBlank (b : ByteArray) (i : Nat) : Nat :=
  if h : i < b.size then
    let c := b[i]
    if c == 32 || c == 9 || c == 10 || c == 13 then skipBlank b (i + 1) else i
  else i
termination_by b.size - i

/-- The offset of the first byte at or after `i` that is not a digit. -/
def skipDigits (b : ByteArray) (i : Nat) : Nat :=
  if h : i < b.size then
    if isDigit b[i] then skipDigits b (i + 1) else i
  else i
termination_by b.size - i

/-- The double nearest to a natural number, a tie going to the even mantissa. -/
def nearestDouble (n : Nat) : Float :=
  let bits := n.log2 + 1
  if bits ≤ 53 then n.toUInt64.toFloat
  else
    let shift := bits - 53
    let q := n >>> shift
    let r := n % Nat.pow 2 shift
    let half := Nat.pow 2 (shift - 1)
    let q := if r > half || (r == half && q % 2 == 1) then q + 1 else q
    Float.scaleB q.toUInt64.toFloat shift

/-- Powers of ten from `10^0` to `10^308` as doubles. -/
def powersOfTen : Array Float := (List.range 309).toArray.map fun i => nearestDouble (Nat.pow 10 i)

/-- Whether appending digit `d` to `n` exceeds `bound`. -/
def overflows (n d bound : Nat) : Bool :=
  n ≥ bound / 10 && (n > bound / 10 || d > bound % 10)

/-- Scales an integer significand by `10^exponent` in steps of at most `10^308`; `end` is the
offset after the number, where an overflow is reported. -/
def scaleDouble (positive : Bool) (significand : Nat) (exponent : Int) (stop : Nat) :
    Except ReadError Float :=
  go 8 significand.toUInt64.toFloat exponent
where
  go : Nat → Float → Int → Except ReadError Float
    | 0, f, _ => .ok (if positive then f else -f)
    | fuel + 1, f, e =>
      match powersOfTen[e.natAbs]? with
      | some p =>
        if e ≥ 0 then
          let g := f * p
          if g.isInf then faultAt stop .numberOutOfRange
          else .ok (if positive then g else -g)
        else
          let g := f / p
          .ok (if positive then g else -g)
      | none =>
        if f == 0 then .ok (if positive then f else -f)
        else if e ≥ 0 then faultAt stop .numberOutOfRange
        else go fuel (f / 1e308) (e + 308)

/-- Clamps to the 32-bit signed range. -/
def clampInt32 (e : Int) : Int := max (-2147483648) (min 2147483647 e)

/-- The exponent part, from the offset after `e` or `E`. -/
def scanExponent (b : ByteArray) (positive : Bool) (significand : Nat) (start : Int) (i : Nat) :
    Scan Float :=
  let (positiveExp, i) :=
    match b[i]? with
    | some 43 => (true, i + 1)
    | some 45 => (false, i + 1)
    | _ => (true, i)
  match b[i]? with
  | none => faultAt i .eofWhileParsingValue
  | some c =>
    if isDigit c then digits positiveExp (c - 48).toNat (i + 1)
    else faultAt (i + 1) .invalidNumber
where
  digits (positiveExp : Bool) (exp : Nat) (j : Nat) : Scan Float :=
    if h : j < b.size then
      let c := b[j]
      if isDigit c then
        let d := (c - 48).toNat
        if overflows exp d 2147483647 then
          -- the exponent overflows: zero, or out of range for a non-zero number grown large
          if significand ≠ 0 && positiveExp then faultAt (j + 1) .numberOutOfRange
          else
            let k := skipDigits b (j + 1)
            .ok (if positive then 0.0 else -0.0, k)
        else digits positiveExp (exp * 10 + d) (j + 1)
      else finish positiveExp exp j
    else finish positiveExp exp j
  termination_by b.size - j
  finish (positiveExp : Bool) (exp : Nat) (j : Nat) : Scan Float :=
    let e := clampInt32 (if positiveExp then start + exp else start - exp)
    (scaleDouble positive significand e j).map fun f => (f, j)

/-- Digits after the point, from the offset after `.`. -/
def scanFraction (b : ByteArray) (positive : Bool) (significand : Nat) (before : Int) (i : Nat) :
    Scan Float :=
  go significand 0 i
where
  go (sig : Nat) (after : Nat) (j : Nat) : Scan Float :=
    if h : j < b.size then
      let c := b[j]
      if isDigit c then
        let d := (c - 48).toNat
        if overflows sig d 18446744073709551615 then
          -- further digits cannot change the double: skip them
          let k := skipDigits b j
          tail sig (before - after) k
        else go (sig * 10 + d) (after + 1) (j + 1)
      else close sig after j
    else close sig after j
  termination_by b.size - j
  close (sig : Nat) (after : Nat) (j : Nat) : Scan Float :=
    if after = 0 then
      match b[j]? with
      | some _ => faultPast b j .invalidNumber
      | none => faultPast b j .eofWhileParsingValue
    else tail sig (before - after) j
  tail (sig : Nat) (e : Int) (j : Nat) : Scan Float :=
    match b[j]? with
    | some 101 | some 69 => scanExponent b positive sig e (j + 1)
    | _ => (scaleDouble positive sig e j).map fun f => (f, j)

/-- What follows the integer digits: a point, an exponent, or the end of an integer. -/
def scanNumberTail (b : ByteArray) (positive : Bool) (significand : Nat) (i : Nat) :
    Scan JsonNumber :=
  match b[i]? with
  | some 46 => (scanFraction b positive significand 0 (i + 1)).map fun (f, j) => (.float f, j)
  | some 101 | some 69 =>
    (scanExponent b positive significand 0 (i + 1)).map fun (f, j) => (.float f, j)
  | _ =>
    if positive then .ok (.nat significand.toUInt64, i)
    else if significand = 0 then .ok (.float (-0.0), i)
    else if significand ≤ Nat.pow 2 63 then .ok (.neg (Int64.ofInt (-(significand : Int))), i)
    else .ok (.float (-(significand.toUInt64.toFloat)), i)

/-- Integer digits that no longer fit 64 bits: they only raise the exponent. -/
def scanLongInteger (b : ByteArray) (positive : Bool) (significand : Nat) (i : Nat) :
    Scan JsonNumber :=
  go 0 i
where
  go (exp : Nat) (j : Nat) : Scan JsonNumber :=
    if h : j < b.size then
      let c := b[j]
      if isDigit c then go (exp + 1) (j + 1)
      else if c == 46 then
        (scanFraction b positive significand exp (j + 1)).map fun (f, k) => (.float f, k)
      else if c == 101 || c == 69 then
        (scanExponent b positive significand exp (j + 1)).map fun (f, k) => (.float f, k)
      else (scaleDouble positive significand exp j).map fun f => (.float f, j)
    else (scaleDouble positive significand exp j).map fun f => (.float f, j)
  termination_by b.size - j

/-- A number from its first digit (after the minus sign of a negative one). -/
def scanNumber (b : ByteArray) (positive : Bool) (i : Nat) : Scan JsonNumber :=
  match b[i]? with
  | none => faultAt i .eofWhileParsingValue
  | some 48 =>
    match b[i + 1]? with
    | some c => if isDigit c then faultPast b (i + 1) .invalidNumber
                else scanNumberTail b positive 0 (i + 1)
    | none => scanNumberTail b positive 0 (i + 1)
  | some c =>
    if isDigit c then digits (c - 48).toNat (i + 1) else faultAt (i + 1) .invalidNumber
where
  digits (sig : Nat) (j : Nat) : Scan JsonNumber :=
    if h : j < b.size then
      let c := b[j]
      if isDigit c then
        let d := (c - 48).toNat
        if overflows sig d 18446744073709551615 then scanLongInteger b positive sig j
        else digits (sig * 10 + d) (j + 1)
      else scanNumberTail b positive sig j
    else scanNumberTail b positive sig j
  termination_by b.size - j

/-- The UTF-8 bytes of a code point. -/
def utf8Bytes (n : Nat) : List UInt8 :=
  if n < 0x80 then [n.toUInt8]
  else if n < 0x800 then [(0xC0 + n / 64).toUInt8, (0x80 + n % 64).toUInt8]
  else if n < 0x10000 then
    [(0xE0 + n / 4096).toUInt8, (0x80 + n / 64 % 64).toUInt8, (0x80 + n % 64).toUInt8]
  else
    [(0xF0 + n / 262144).toUInt8, (0x80 + n / 4096 % 64).toUInt8,
      (0x80 + n / 64 % 64).toUInt8, (0x80 + n % 64).toUInt8]

/-- The value of a hexadecimal digit. -/
def hexValue (c : UInt8) : Option Nat :=
  if 48 ≤ c && c ≤ 57 then some (c - 48).toNat
  else if 97 ≤ c && c ≤ 102 then some (c - 87).toNat
  else if 65 ≤ c && c ≤ 70 then some (c - 55).toNat
  else none

/-- Four hexadecimal digits from offset `i`. -/
def scanHex4 (b : ByteArray) (i : Nat) : Scan Nat :=
  if i + 4 ≤ b.size then
    let digit (k : Nat) : Option Nat := b[k]?.bind hexValue
    match digit i, digit (i + 1), digit (i + 2), digit (i + 3) with
    | some a, some c, some d, some e => .ok (((a * 16 + c) * 16 + d) * 16 + e, i + 4)
    | _, _, _, _ => faultAt (i + 4) .invalidEscape
  else faultAt b.size .eofWhileParsingString

/-- A `\u` escape from the offset after `u`: one code point, or a surrogate pair. -/
def scanUnicodeEscape (b : ByteArray) (i : Nat) : Scan (List UInt8) :=
  match scanHex4 b i with
  | .error e => .error e
  | .ok (n, j) =>
    if 0xDC00 ≤ n && n ≤ 0xDFFF then faultAt j .loneLeadingSurrogate
    else if n < 0xD800 || n > 0xDBFF then .ok (utf8Bytes n, j)
    else
      -- a leading surrogate must be followed by a second escape holding a trailing one
      match b[j]? with
      | none => faultAt j .eofWhileParsingString
      | some c =>
        if c != 92 then faultAt (j + 1) .unexpectedEndOfHexEscape
        else
          match b[j + 1]? with
          | none => faultAt (j + 1) .eofWhileParsingString
          | some c =>
            if c != 117 then faultAt (j + 2) .unexpectedEndOfHexEscape
            else
              match scanHex4 b (j + 2) with
              | .error e => .error e
              | .ok (n2, k) =>
                if n2 < 0xDC00 || n2 > 0xDFFF then faultAt k .loneLeadingSurrogate
                else .ok (utf8Bytes ((n - 0xD800) * 1024 + (n2 - 0xDC00) + 0x10000), k)

/-- A string body from the offset after the opening quote, up to and past the closing one. -/
def scanString (b : ByteArray) (i : Nat) : Scan String :=
  go ByteArray.empty i
where
  go (acc : ByteArray) (j : Nat) : Scan String :=
    if h : j < b.size then
      let c := b[j]
      if c == 34 then .ok ((String.fromUTF8? acc).getD "", j + 1)
      else if c == 92 then
        match b[j + 1]? with
        | none => faultAt (j + 1) .eofWhileParsingString
        | some e =>
          let simple : Option UInt8 :=
            if e == 34 then some 34 else if e == 92 then some 92 else if e == 47 then some 47
            else if e == 98 then some 8 else if e == 102 then some 12
            else if e == 110 then some 10 else if e == 114 then some 13
            else if e == 116 then some 9 else none
          match simple with
          | some v => go (acc.push v) (j + 2)
          | none =>
            if e == 117 then
              match scanUnicodeEscape b (j + 2) with
              | .ok (bytes, k) =>
                if j < k then go (bytes.foldl ByteArray.push acc) k else faultAt k .invalidEscape
              | .error err => .error err
            else faultAt (j + 2) .invalidEscape
      else if c < 32 then faultAt (j + 1) .controlCharacterInString
      else go (acc.push c) (j + 1)
    else faultAt b.size .eofWhileParsingString
  termination_by b.size - j

/-! ### The cursor

`ReadM` keeps the cursor through a failure, so that a value can still close its bracket and
place a fault without an offset at the cursor.
-/

/-- The cursor: the offset of the next byte and the nesting still allowed. -/
structure Cursor where
  pos : Nat
  depth : Nat

/-- A reader over fixed input bytes. -/
abbrev ReadM := ReaderT ByteArray (ExceptT ReadError (StateM Cursor))

namespace ReadM

/-- The next byte, if any. -/
def peek : ReadM (Option UInt8) := do
  return (← read)[(← get).pos]?

/-- Moves past one byte. -/
def advance : ReadM Unit := modify fun c => { c with pos := c.pos + 1 }

/-- Fails at the cursor. -/
def fail {α : Type} (f : ReadFault) : ReadM α := do
  throw ⟨f, some (← get).pos⟩

/-- Fails one byte past the cursor (a fault found by looking at the next byte). -/
def failPast {α : Type} (f : ReadFault) : ReadM α := do
  throw ⟨f, some (min ((← get).pos + 1) (← read).size)⟩

/-- Fails without an offset; the value being read places it. -/
def failHere {α : Type} (f : ReadFault) : ReadM α := throw ⟨f, none⟩

/-- Gives a fault without an offset the cursor's offset. -/
def place (e : ReadError) : ReadM ReadError := do
  match e.offset with
  | some _ => return e
  | none => return ⟨e.fault, some (← get).pos⟩

/-- Runs `x`, placing a fault without an offset at the cursor where it ended. -/
def placing {α : Type} (x : ReadM α) : ReadM α :=
  tryCatch x fun e => do throw (← place e)

/-- Runs a scanner at the cursor and moves past what it read. -/
def scan {α : Type} (s : ByteArray → Nat → Scan α) : ReadM α := do
  match s (← read) (← get).pos with
  | .ok (a, j) => do modify (fun c => { c with pos := j }); return a
  | .error e => throw e

/-- Skips blanks and returns the next byte, if any. -/
def blank : ReadM (Option UInt8) := do
  let b ← read
  modify fun c => { c with pos := skipBlank b c.pos }
  peek

/-- Reads the rest of a keyword whose first byte was consumed. -/
def keyword (rest : List UInt8) : ReadM Unit :=
  rest.forM fun expected => do
    match ← peek with
    | none => fail .eofWhileParsingValue
    | some c =>
      advance
      if c != expected then fail .expectedSomeIdent

/-- A number at the cursor, after the minus sign of a negative one. -/
def number (positive : Bool) : ReadM JsonNumber := scan fun b i => scanNumber b positive i

/-- A string at the cursor, after its opening quote. -/
def string : ReadM String := scan scanString

/-- Reads the value at the cursor only to name it, and fails: it is not of the type `expected`. -/
def invalidType {α : Type} (expected : String) : ReadM α := do
  let found ← match ← peek with
    | some 110 => do advance; keyword [117, 108, 108]; pure Unexpected.unit
    | some 116 => do advance; keyword [114, 117, 101]; pure (Unexpected.bool true)
    | some 102 => do advance; keyword [97, 108, 115, 101]; pure (Unexpected.bool false)
    | some 45 => do advance; pure (← number false).unexpected
    | some 34 => do advance; pure (Unexpected.str (← string))
    | some 91 => pure Unexpected.seq
    | some 123 => pure Unexpected.map
    | some c => if isDigit c then do pure (← number true).unexpected
                else failPast .expectedSomeValue
    | none => failPast .expectedSomeValue
  fail (.invalidType found expected)

/-- Enters an array or object whose opening bracket is next: checks the nesting, moves past the
bracket and runs `body`, keeping its outcome. -/
def nested {α : Type} (body : ReadM α) : ReadM (Except ReadError α) := do
  let c ← get
  if c.depth ≤ 1 then failPast .recursionLimitExceeded
  set { c with depth := c.depth - 1 }
  advance
  let r ← tryCatch (Except.ok <$> body) fun e => pure (Except.error e)
  modify fun c => { c with depth := c.depth + 1 }
  return r

/-- Closes an array: the next byte must be `]`. -/
def closeArray : ReadM Unit := do
  match ← blank with
  | some 93 => advance
  | some 44 =>
    advance
    match ← blank with
    | some 93 => failPast .trailingComma
    | _ => failPast .trailingCharacters
  | some _ => failPast .trailingCharacters
  | none => failPast .eofWhileParsingList

/-- Closes an object: the next byte must be a closing brace. -/
def closeObject : ReadM Unit := do
  match ← blank with
  | some 125 => advance
  | some 44 => failPast .trailingComma
  | some _ => failPast .trailingCharacters
  | none => failPast .eofWhileParsingObject

/-- Closes a container after its body: the body's fault wins over a fault in closing. -/
def finish {α : Type} (r : Except ReadError α) (close : ReadM Unit) : ReadM α := do
  let closed ← tryCatch (close *> pure none) fun e => pure (some e)
  match r, closed with
  | .error e, _ => throw e
  | .ok _, some e => throw e
  | .ok a, none => return a

/-- Whether an array has another item; `first` for the first one. -/
def hasItem (first : Bool) : ReadM Bool := do
  match ← blank with
  | none => failPast .eofWhileParsingList
  | some 93 => return false
  | some c =>
    if first then return true
    else if c == 44 then
      advance
      match ← blank with
      | some 93 => failPast .trailingComma
      | some _ => return true
      | none => failPast .eofWhileParsingValue
    else failPast .expectedListCommaOrEnd

/-- The next member name of an object, if any; `first` for the first one. -/
def nextKey (first : Bool) : ReadM (Option String) := do
  let present ← match ← blank with
    | none => failPast .eofWhileParsingObject
    | some 125 => pure false
    | some c =>
      if first then
        if c == 34 then pure true else failPast .keyMustBeAString
      else if c == 44 then do
        advance
        match ← blank with
        | some 34 => pure true
        | some 125 => failPast .trailingComma
        | some _ => failPast .keyMustBeAString
        | none => failPast .eofWhileParsingValue
      else failPast .expectedObjectCommaOrEnd
  if present then
    advance
    return some (← string)
  else return none

/-- The colon between a member name and its value. -/
def colon : ReadM Unit := do
  match ← blank with
  | some 58 => advance
  | some _ => failPast .expectedColon
  | none => failPast .eofWhileParsingObject

/-- Fails if anything but blanks is left. -/
def atEnd : ReadM Unit := do
  match ← blank with
  | some _ => failPast .trailingCharacters
  | none => return ()

/-- A fault that the fuel of a reader rules out: between two steps that consume no byte there
is always one that does, and the fuel is more than twice the input. -/
def outOfFuel {α : Type} : ReadM α := fail .eofWhileParsingValue

mutual

/-- Any JSON value at the cursor. -/
def anyValue : Nat → ReadM Json
  | 0 => outOfFuel
  | fuel + 1 => placing do
    match ← blank with
    | none => failPast .eofWhileParsingValue
    | some 110 => advance; keyword [117, 108, 108]; return .null
    | some 116 => advance; keyword [114, 117, 101]; return .bool true
    | some 102 => advance; keyword [97, 108, 115, 101]; return .bool false
    | some 45 => advance; return .number (← number false)
    | some 34 => advance; return .string (← string)
    | some 91 => finish (← nested (anyItems fuel [] true)) closeArray
    | some 123 => finish (← nested (anyMembers fuel [] true)) closeObject
    | some c =>
      if isDigit c then return .number (← number true) else failPast .expectedSomeValue

/-- The remaining items of an array, after those in `acc` (newest first). -/
def anyItems : Nat → List Json → Bool → ReadM Json
  | 0, _, _ => outOfFuel
  | fuel + 1, acc, first => do
    if ← hasItem first then
      let v ← anyValue fuel
      anyItems fuel (v :: acc) false
    else return .array acc.reverse

/-- The remaining members of an object; a repeated name replaces the earlier member. -/
def anyMembers : Nat → List (String × Json) → Bool → ReadM Json
  | 0, _, _ => outOfFuel
  | fuel + 1, acc, first => do
    match ← nextKey first with
    | none => return .object acc
    | some key =>
      colon
      let v ← anyValue fuel
      anyMembers fuel (Json.insertMember key v acc) false

end

/-- Runs a reader over a text from its start, allowing 127 levels of nesting. -/
def runOn {α : Type} (x : ReadM α) (input : ByteArray) : Except ReadError α :=
  (((ReaderT.run x input).run).run ⟨0, 128⟩).1

/-- Fuel that covers every step of a reader over `input`. -/
def fuelFor (input : ByteArray) : Nat := 2 * input.size + 4

end ReadM

/-- Reads a whole text as one JSON value. -/
def Json.read (text : String) : Except String Json :=
  let input := text.toUTF8
  match ReadM.runOn (do let v ← ReadM.anyValue (ReadM.fuelFor input); ReadM.atEnd; pure v) input with
  | .ok v => .ok v
  | .error e => .error (e.message input)

end CatalogQuery
