/-!
# JSON values

The JSON data the catalog reads and writes. A number keeps the shape the reader gave it: a
non-negative integer that fits 64 unsigned bits, a negative integer that fits 64 signed bits, or a
finite double. So `1`, `-1` and `1.0` stay three different values, as a sorted-map JSON model
keeps them, and a writer can print each back in its own form.

Object members are listed in strictly increasing key order with no key twice. `Json.insert`
keeps that order and lets a later member replace an earlier one of the same key, which is how a
sorted map takes a repeated key.
-/

namespace CatalogQuery

/-- A JSON number in one of the three shapes a reader produces. -/
inductive JsonNumber where
  /-- A non-negative integer below `2^64`. -/
  | nat (n : UInt64)
  /-- A negative integer at or above `-2^63`. -/
  | neg (n : Int64)
  /-- A finite double. -/
  | float (f : Float)

/-- A JSON value; objects hold their members in increasing key order. -/
inductive Json where
  | null
  | bool (b : Bool)
  | number (n : JsonNumber)
  | string (s : String)
  | array (items : List Json)
  | object (members : List (String × Json))

namespace JsonNumber

/-- The number as a signed 64-bit integer, when it is an integer in that range. -/
def toInt64? : JsonNumber → Option Int64
  | .nat n => if n.toNat < Nat.pow 2 63 then some n.toInt64 else none
  | .neg n => some n
  | .float _ => none

/-- An integer as a JSON number: non-negative ones take the unsigned shape. -/
def ofInt64 (n : Int64) : JsonNumber :=
  if n < 0 then .neg n else .nat n.toUInt64

end JsonNumber

namespace Json

/-- A signed 64-bit integer as JSON. -/
def int (n : Int64) : Json := .number (JsonNumber.ofInt64 n)

/-- A count as JSON (counts stay below `2^64`). -/
def count (n : Nat) : Json := .number (.nat n.toUInt64)

/-- A present value through `f`, an absent one as null. -/
def ofOption {α : Type} (f : α → Json) : Option α → Json
  | some a => f a
  | none => .null

/-- Puts a member into an ordered member list; a member of the same key is replaced. -/
def insertMember (key : String) (value : Json) : List (String × Json) → List (String × Json)
  | [] => [(key, value)]
  | (k, v) :: rest =>
    if key < k then (key, value) :: (k, v) :: rest
    else if key = k then (key, value) :: rest
    else (k, v) :: insertMember key value rest

/-- An object built from members given in any order; of two equal keys the later one wins. -/
def objectOf (members : List (String × Json)) : Json :=
  .object (members.foldl (fun acc (k, v) => insertMember k v acc) [])

/-- The value of a member of an object, if there is one. -/
def member? (key : String) : Json → Option Json
  | .object members => members.lookup key
  | _ => none

end Json

end CatalogQuery
