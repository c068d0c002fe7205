import CatalogQuery.Json.Value
import CatalogQuery.Decimal.Shortest

/-!
# Number text

Integers are written in plain decimal. A double is written with its shortest digits
(`Decimal.shortest`), laid out by a `FloatLayout`:

* `FloatLayout.json`, the layout of JSON output: positional while the decimal point falls at
  most 16 places after the first digit and at most 4 zeros follow the point, with `.0` after a
  whole number; otherwise one digit, a point and the rest, then `e`, a sign and the exponent.
* `FloatLayout.plain`, the layout of numbers quoted in error messages: always positional and
  never an exponent.

Zero keeps its sign: `-0.0`.
-/

namespace CatalogQuery

/-- How the shortest digits of a double are laid out as text. -/
structure FloatLayout where
  /-- Positional notation is used when the point stands this many places after the first
  digit, counted `digits + exponent`, within the range. -/
  positionalLow : Int
  positionalHigh : Int
  /-- Write `.0` after a whole number in positional notation. -/
  pointZero : Bool
  /-- Write `+` before a non-negative exponent. -/
  exponentPlus : Bool

/-- JSON output: positional from `0.0001` up to sixteen integer digits, `1e+20` beyond. -/
def FloatLayout.json : FloatLayout := ⟨-4, 16, true, true⟩

/-- Quoted numbers in messages: positional always, no `.0` of their own. -/
def FloatLayout.plain : FloatLayout := ⟨-1000, 1000, false, true⟩

/-- A run of `n` zero characters. -/
def zeros (n : Nat) : String := String.ofList (List.replicate n '0')

/-- Lays out the digit string `s` times `10^k` (`s` has no leading or trailing zero). -/
def FloatLayout.place (layout : FloatLayout) (s : String) (k : Int) : String :=
  let len : Int := s.length
  let kk := len + k
  if layout.positionalLow ≤ kk ∧ kk ≤ layout.positionalHigh then
    if 0 ≤ k then
      s ++ zeros k.toNat ++ (if layout.pointZero then ".0" else "")
    else if 0 < kk then
      String.ofList (s.toList.take kk.toNat) ++ "." ++ String.ofList (s.toList.drop kk.toNat)
    else
      "0." ++ zeros (-kk).toNat ++ s
  else
    let e := kk - 1
    let mantissa :=
      if s.length = 1 then s
      else String.ofList (s.toList.take 1) ++ "." ++ String.ofList (s.toList.drop 1)
    let sign := if e < 0 then "-" else if layout.exponentPlus then "+" else ""
    mantissa ++ "e" ++ sign ++ toString e.natAbs

/-- The text of a finite double in the given layout. -/
def FloatLayout.write (layout : FloatLayout) (x : Float) : String :=
  let negative := x.toBits >>> 63 == 1
  let sign := if negative then "-" else ""
  if x == 0 then
    sign ++ (if layout.pointZero then "0.0" else "0")
  else
    let (d, k) := Decimal.shortest x.abs
    sign ++ layout.place (toString d) k

namespace JsonNumber

/-- The text of a number in JSON output. -/
def render : JsonNumber → String
  | .nat n => toString n.toNat
  | .neg n => toString n.toInt
  | .float f => FloatLayout.json.write f

end JsonNumber

end CatalogQuery
