/-!
# Like patterns

A `like` pattern matches a whole text: `%` matches any run of characters, possibly empty, `_`
matches exactly one character, and every other character matches itself.

`Like.accepts` reads the text once, keeping the set of pattern positions that the text read so
far can reach; a `%` at a reached position also reaches the next position without reading.
-/

namespace CatalogQuery.Like

/-- Marks, left to right, the positions reached from a reached `%` without reading. -/
def close (pat : Array Char) (reach : Array Bool) : Array Bool :=
  (List.range pat.size).foldl
    (fun r i => if r.getD i false && pat.getD i ' ' == '%' then r.setIfInBounds (i + 1) true else r)
    reach

/-- The positions reached after reading `c` from the reached positions. -/
def step (pat : Array Char) (reach : Array Bool) (c : Char) : Array Bool :=
  let next := (List.range pat.size).foldl
    (fun r i =>
      if reach.getD i false then
        let p := pat.getD i ' '
        if p == '%' then r.setIfInBounds i true
        else if p == '_' || p == c then r.setIfInBounds (i + 1) true
        else r
      else r)
    (Array.replicate (pat.size + 1) false)
  close pat next

/-- Whether the whole text matches the pattern. -/
def accepts (pattern text : String) : Bool :=
  let pat := pattern.toList.toArray
  let start := close pat ((Array.replicate (pat.size + 1) false).setIfInBounds 0 true)
  let final := text.toList.foldl (step pat) start
  final.getD pat.size false

end CatalogQuery.Like
