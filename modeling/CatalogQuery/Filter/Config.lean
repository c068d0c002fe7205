import CatalogQuery.Filter.Compiler

/-!
# Compiler settings

The nesting limit can come from a setting text. The text is read as an unsigned 64-bit count:
an optional `+`, then at least one ASCII digit and nothing else, at most `2^64 - 1`. A missing or
unreadable setting gives the default of 60. Reading the setting writes the limit in effect to
the journal.
-/

namespace CatalogQuery

/-- The largest unsigned 64-bit count. -/
def maxCount : Nat := 18446744073709551615

/-- The value of a decimal count text: an optional `+`, then one or more ASCII digits. -/
def parseCount? (s : String) : Option Nat :=
  let digits := match s.toList with
    | '+' :: rest => rest
    | cs => cs
  if digits.isEmpty || !digits.all Char.isDigit then none
  else
    let n := digits.foldl (fun acc c => acc * 10 + (c.toNat - 48)) 0
    if n ≤ maxCount then some n else none

/-- The name of the setting that holds the nesting limit. -/
def maxDepthSetting : String := "CATALOG_FILTER_MAX_DEPTH"

/-- The configuration a setting gives, with the record of the limit in effect. -/
def CompilerConfig.ofSetting (setting : Option String) : CompilerConfig × LogRecord :=
  let depth := (setting.bind parseCount?).getD CompilerConfig.default.maxDepth
  (⟨depth⟩, ⟨.debug, maxDepthSetting ++ "=" ++ toString depth⟩)

end CatalogQuery
