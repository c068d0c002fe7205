/-!
# Shortest decimal digits of a double

A finite positive double is `m · 2^q` for a natural `m` and an integer `q`. The reals that round
to it form an interval around it, reaching half-way to each neighbouring double, and containing
its ends exactly when `m` is even (a reader rounds a tie to the even mantissa).

`Decimal.shortest` returns the decimal `d · 10^k` with the fewest digits inside that interval
and, of those, the one nearest to the double; so it reads back as the same double and no shorter
decimal does. For each digit count `n` it looks at the two neighbours of the double on the grid
`10^k` with `k = e - n + 1`, where `10^e ≤ x < 10^(e+1)`: if a point of that grid lies in the
interval then one of the two neighbours does. All comparisons are exact in `Nat`.
-/

namespace CatalogQuery.Decimal

/-- A finite double as `mantissa · 2^exponent`, with what its interval needs. -/
structure Binary where
  mantissa : Nat
  exponent : Int
  /-- The next smaller double is half as far away as the next larger one. -/
  narrowBelow : Bool

/-- Decodes the bits of a finite non-negative double. -/
def Binary.ofBits (bits : UInt64) : Binary :=
  let biased := ((bits >>> 52) &&& 0x7FF).toNat
  let fraction := (bits &&& 0xFFFFFFFFFFFFF).toNat
  if biased = 0 then ⟨fraction, -1074, false⟩
  else ⟨fraction + Nat.pow 2 52, (biased : Int) - 1075, fraction = 0 && biased > 1⟩

/-- Compares `c · 10^k` with `x · 2^p` exactly. -/
def compareScaled (c : Nat) (k : Int) (x : Nat) (p : Int) : Ordering :=
  let lhs := c * Nat.pow 10 k.toNat * Nat.pow 2 (-p).toNat
  let rhs := x * Nat.pow 2 p.toNat * Nat.pow 10 (-k).toNat
  compare lhs rhs

/-- The exponent `e` with `10^e ≤ m · 2^q < 10^(e+1)`, for `m > 0`. -/
def decimalExponent (b : Binary) : Int :=
  let binaryExp : Int := (Nat.log2 b.mantissa : Int) + b.exponent
  let estimate := Int.fdiv (binaryExp * 78913) 262144
  -- the estimate is off by at most one; two steps each way settle it
  let below (e : Int) : Bool := compareScaled 1 e b.mantissa b.exponent == .gt
  let down := fun e => if below e then e - 1 else e
  let up := fun e => if below (e + 1) then e else e + 1
  up (up (down (down estimate)))

/-- Whether `c · 10^k` lies in the rounding interval of the double. -/
def Binary.admits (b : Binary) (c : Nat) (k : Int) : Bool :=
  let even := b.mantissa % 2 == 0
  let low := 4 * b.mantissa - (if b.narrowBelow then 1 else 2)
  let high := 4 * b.mantissa + 2
  let p := b.exponent - 2
  let aboveLow := match compareScaled c k low p with
    | .gt => true
    | .eq => even
    | .lt => false
  let belowHigh := match compareScaled c k high p with
    | .lt => true
    | .eq => even
    | .gt => false
  aboveLow && belowHigh

/-- Drops trailing zero digits into the exponent. -/
def trimZeros : Nat → Nat → Int → Nat × Int
  | 0, d, k => (d, k)
  | fuel + 1, d, k => if d ≠ 0 && d % 10 == 0 then trimZeros fuel (d / 10) (k + 1) else (d, k)

/-- The best decimal with `n` significant digits, if one lies in the interval. -/
def Binary.candidate (b : Binary) (e : Int) (n : Nat) : Option (Nat × Int) :=
  let k := e - n + 1
  let num := b.mantissa * Nat.pow 2 b.exponent.toNat * Nat.pow 10 (-k).toNat
  let den := Nat.pow 2 (-b.exponent).toNat * Nat.pow 10 k.toNat
  let lower := num / den
  if num % den == 0 then some (lower, k)
  else
    let upper := lower + 1
    match b.admits lower k, b.admits upper k with
    | true, true =>
      -- both read back: take the nearer, a tie goes to the even digit string
      match compare (2 * num) ((2 * lower + 1) * den) with
      | .lt => some (lower, k)
      | .gt => some (upper, k)
      | .eq => some (if lower % 2 == 0 then lower else upper, k)
    | true, false => some (lower, k)
    | false, true => some (upper, k)
    | false, false => none

/-- Tries digit counts `n`, `n + 1`, … up to seventeen, which always suffices. -/
def Binary.search (b : Binary) (e : Int) : Nat → Nat → Nat × Int
  | 0, n => ((b.mantissa * Nat.pow 2 b.exponent.toNat) / Nat.pow 2 (-b.exponent).toNat, e - n + 1)
  | fuel + 1, n =>
    match b.candidate e n with
    | some r => r
    | none => b.search e fuel (n + 1)

/-- Digits and exponent of the shortest, nearest decimal of a finite positive double. -/
def shortest (x : Float) : Nat × Int :=
  let b := Binary.ofBits x.toBits
  let (d, k) := b.search (decimalExponent b) 17 1
  trimZeros 20 d k

end CatalogQuery.Decimal
