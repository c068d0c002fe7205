import CatalogQuery.Catalog.Store

/-!
# The sample catalog

Three buckets (`bucket1` and `bucket3` owned by `admin`, `bucket2` by `user`) and six commits:
two of object `name` in `bucket1` (times 100 and 200), one of `script1` in `bucket1`, and objects
`name2`, `name3` and `other` in `bucket2`. Each commit's message is `commit <name> at <time>`.
-/

namespace CatalogQuery.Sample

/-- A commit of the sample, with its message. -/
def sampleCommit (bucketId : Int64) (name kind contentType : String) (time : Int64)
    (metadata : List (String × String)) : Commit :=
  { bucketId, name, kind, contentType, commitTime := time,
    commitMessage := "commit " ++ name ++ " at " ++ toString time.toInt,
    metadata := metadata.map fun (k, v) => ⟨k, v⟩ }

/-- The sample catalog and the records of its commits. -/
def catalog : Catalog × List LogRecord :=
  let c := Catalog.empty
  let (b1, c) := c.createBucket "bucket1" "admin"
  let (b2, c) := c.createBucket "bucket2" "user"
  let (_, c) := c.createBucket "bucket3" "admin"
  let xml := "application/xml"
  let commits := [
    sampleCommit b1 "name" "workflow" xml 100 [("project", "alpha"), ("owner", "bob")],
    sampleCommit b1 "name" "workflow" xml 200 [("project", "alpha"), ("owner", "alice")],
    sampleCommit b1 "script1" "script" "text/plain" 150 [("lang", "python")],
    sampleCommit b2 "name2" "workflow" xml 110 [("project", "beta"), ("owner", "bob")],
    sampleCommit b2 "name3" "workflow/standard" xml 120 [("project", "alpha"), ("priority", "high")],
    sampleCommit b2 "other" "calendar" "application/json" 130 []]
  commits.foldl (fun (c, logs) m => let (_, c, r) := c.commit m; (c, logs ++ [r])) (c, [])

end CatalogQuery.Sample
