import CatalogQuery.Filter.Expression

/-!
# Sample filters

Filters used to exercise the compiler: a nested expression over two buckets, the same filter as a
payload text, and filters nested to any depth by wrapping one constraint in single-child ANDs.
-/

namespace CatalogQuery.Sample

/-- The constraint `field eq text`. -/
def equals (field : FieldId) (text : String) : Expression :=
  .constraint ⟨field, .eq, .single (.text text)⟩

/-- The filter `(bucketName eq bucket1 AND name eq name) OR (bucketName eq bucket2 AND
(name eq name2 OR name eq name3))`. -/
def nestedExpression : Expression :=
  .or [
    .and [equals .bucketName "bucket1", equals .objectName "name"],
    .and [equals .bucketName "bucket2",
      .or [equals .objectName "name2", equals .objectName "name3"]]]

/-- The nested filter as a payload text, spread over several lines. -/
def nestedPayload : String :=
  "\x7b\n" ++
  "    \"orArg\": [\n" ++
  "        \x7b\"andArg\": [\x7b\"bucketNameArg\": \x7b\"eq\": \"bucket1\"\x7d\x7d, " ++
    "\x7b\"nameArg\": \x7b\"eq\": \"name\"\x7d\x7d]\x7d,\n" ++
  "        \x7b\"andArg\": [\n" ++
  "            \x7b\"bucketNameArg\": \x7b\"eq\": \"bucket2\"\x7d\x7d,\n" ++
  "            \x7b\"orArg\": [\x7b\"nameArg\": \x7b\"eq\": \"name2\"\x7d\x7d, " ++
    "\x7b\"nameArg\": \x7b\"eq\": \"name3\"\x7d\x7d]\x7d\n" ++
  "        ]\x7d\n" ++
  "    ]\n" ++
  "\x7d"

/-- The constraint `kind eq workflow` inside `levels` single-child ANDs. -/
def deepExpression (levels : Nat) : Expression :=
  (List.range levels).foldl (fun e _ => .and [e]) (equals .kind "workflow")

/-- The payload of `deepExpression levels`. -/
def deepPayload (levels : Nat) : String :=
  (List.range levels).foldl (fun p _ => "\x7b\"andArg\": [" ++ p ++ "]\x7d")
    "\x7b\"kindArg\": \x7b\"eq\": \"workflow\"\x7d\x7d"

end CatalogQuery.Sample
