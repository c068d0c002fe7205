import CatalogQuery.Journal
import CatalogQuery.Json.Value

/-!
# The in-memory catalog

A catalog holds buckets, catalog objects and their revisions. Buckets are kept in increasing id
order and objects in increasing `(bucket id, name)` order, one per key; revisions keep the order
they were added in.

Committing a revision gives it the id after the last revision's (1 for the first) and brings the
object up to date: the object takes the commit's kind, content type and time unless it already
records a later commit time. Ids are 64-bit and the successor of the largest one wraps around.
-/

namespace CatalogQuery

/-- A bucket. -/
structure Bucket where
  id : Int64
  name : String
  owner : String
  deriving DecidableEq, Repr

/-- The latest state of an object in a bucket. -/
structure CatalogObject where
  bucketId : Int64
  name : String
  kind : String
  contentType : String
  lastCommitTime : Int64
  deriving DecidableEq, Repr

/-- A key/value entry of a revision's metadata. -/
structure MetadataEntry where
  key : String
  value : String
  deriving DecidableEq, Repr

/-- One committed revision of an object. -/
structure Revision where
  id : Int64
  bucketId : Int64
  name : String
  commitTime : Int64
  commitMessage : String
  metadata : List MetadataEntry
  deriving DecidableEq, Repr

/-- What a commit records. -/
structure Commit where
  bucketId : Int64
  name : String
  kind : String
  contentType : String
  commitTime : Int64
  commitMessage : String := ""
  metadata : List MetadataEntry := []

/-- The catalog's contents. -/
structure Catalog where
  buckets : List Bucket
  objects : List CatalogObject
  revisions : List Revision

namespace Catalog

/-- The catalog with nothing in it. -/
def empty : Catalog := ⟨[], [], []⟩

/-- Whether object key `(b₁, n₁)` comes before `(b₂, n₂)`. -/
def keyLt (b₁ : Int64) (n₁ : String) (b₂ : Int64) (n₂ : String) : Bool :=
  b₁ < b₂ || (b₁ == b₂ && n₁ < n₂)

/-- Puts a bucket in id order, replacing one of the same id. -/
def putBucket (b : Bucket) : List Bucket → List Bucket
  | [] => [b]
  | x :: rest =>
    if b.id < x.id then b :: x :: rest
    else if b.id == x.id then b :: rest
    else x :: putBucket b rest

/-- Puts an object in key order, replacing one of the same key. -/
def putObject (o : CatalogObject) : List CatalogObject → List CatalogObject
  | [] => [o]
  | x :: rest =>
    if keyLt o.bucketId o.name x.bucketId x.name then o :: x :: rest
    else if o.bucketId == x.bucketId && o.name == x.name then o :: rest
    else x :: putObject o rest

/-- Adds or replaces a bucket. -/
def insertBucket (c : Catalog) (b : Bucket) : Catalog := { c with buckets := putBucket b c.buckets }

/-- Adds or replaces an object. -/
def insertObject (c : Catalog) (o : CatalogObject) : Catalog :=
  { c with objects := putObject o c.objects }

/-- Appends a revision as given. -/
def insertRevision (c : Catalog) (r : Revision) : Catalog := { c with revisions := c.revisions ++ [r] }

/-- Creates a bucket with the id after the largest one (1 in an empty catalog). -/
def createBucket (c : Catalog) (name owner : String) : Int64 × Catalog :=
  let id := match c.buckets.getLast? with
    | some last => last.id + 1
    | none => 1
  (id, c.insertBucket ⟨id, name, owner⟩)

/-- The bucket of an id. -/
def bucket? (c : Catalog) (id : Int64) : Option Bucket := c.buckets.find? (·.id == id)

/-- The bucket of a name with the smallest id. -/
def bucketByName? (c : Catalog) (name : String) : Option Bucket := c.buckets.find? (·.name == name)

/-- The object of a key. -/
def object? (c : Catalog) (bucketId : Int64) (name : String) : Option CatalogObject :=
  c.objects.find? fun o => o.bucketId == bucketId && o.name == name

/-- Records a commit as a new revision and brings its object up to date; returns the revision
id and the record of the commit. -/
def commit (c : Catalog) (m : Commit) : Int64 × Catalog × LogRecord :=
  let id := match c.revisions.getLast? with
    | some last => last.id + 1
    | none => 1
  let objects := match c.object? m.bucketId m.name with
    | some o =>
      if o.lastCommitTime > m.commitTime then c.objects
      else
        let updated : CatalogObject :=
          { o with kind := m.kind, contentType := m.contentType, lastCommitTime := m.commitTime }
        putObject updated c.objects
    | none => putObject ⟨m.bucketId, m.name, m.kind, m.contentType, m.commitTime⟩ c.objects
  let record : LogRecord := ⟨.debug, "committed revision " ++ toString id.toInt ++ " of " ++
    toString m.bucketId.toInt ++ "/" ++ m.name ++ " at " ++ toString m.commitTime.toInt⟩
  (id, ⟨c.buckets, objects, c.revisions ++
    [⟨id, m.bucketId, m.name, m.commitTime, m.commitMessage, m.metadata⟩]⟩, record)

end Catalog

/-- A bucket as JSON. -/
def Bucket.toJson (b : Bucket) : Json :=
  .object [("bucketName", .string b.name), ("id", Json.int b.id), ("owner", .string b.owner)]

/-- An object as JSON. -/
def CatalogObject.toJson (o : CatalogObject) : Json :=
  .object [("bucketId", Json.int o.bucketId), ("contentType", .string o.contentType),
    ("kind", .string o.kind), ("lastCommitTime", Json.int o.lastCommitTime),
    ("name", .string o.name)]

/-- A revision as JSON, with its metadata entries in order. -/
def Revision.toJson (r : Revision) : Json :=
  .object [("bucketId", Json.int r.bucketId), ("commitMessage", .string r.commitMessage),
    ("commitTime", Json.int r.commitTime), ("id", Json.int r.id),
    ("metadata", .array (r.metadata.map fun e =>
      .object [("key", .string e.key), ("value", .string e.value)])),
    ("name", .string r.name)]

/-- The catalog as JSON: buckets, objects and revisions, each in its own order. -/
def Catalog.toJson (c : Catalog) : Json :=
  .object [("buckets", .array (c.buckets.map Bucket.toJson)),
    ("objects", .array (c.objects.map CatalogObject.toJson)),
    ("revisions", .array (c.revisions.map Revision.toJson))]

end CatalogQuery
