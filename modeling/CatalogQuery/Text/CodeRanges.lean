/-!
# Code point range tables

A `CodeRanges` table lists closed ranges of code points, sorted and disjoint. `contains`
answers membership by halving the table, so a look-up costs a dozen comparisons even for the
largest Unicode property tables.
-/

namespace CatalogQuery.Text

/-- Closed code point ranges `(low, high)`, in increasing order and disjoint. -/
structure CodeRanges where
  ranges : Array (Nat × Nat)

namespace CodeRanges

/-- Whether `c` lies in one of the ranges with index in `[lo, hi)`. -/
def containsIn (t : CodeRanges) (c : Nat) (lo hi : Nat) : Bool :=
  if lo < hi then
    let mid := (lo + hi) / 2
    match t.ranges[mid]? with
    | none => false
    | some (a, b) =>
      if c < a then t.containsIn c lo mid
      else if b < c then t.containsIn c (mid + 1) hi
      else true
  else false
termination_by hi - lo

/-- Whether `c` lies in one of the ranges. -/
def contains (t : CodeRanges) (c : Nat) : Bool := t.containsIn c 0 t.ranges.size

end CodeRanges

end CatalogQuery.Text
