import CatalogQuery.Catalog.Store
import CatalogQuery.Catalog.Like
import CatalogQuery.Catalog.Regex
import CatalogQuery.Filter.Compiler

/-!
# Searching the catalog

A compiled filter is evaluated row by row. Every revision starts a row; the filter's joins are
applied in graph order: the catalog object join keeps a row only if the revision's object exists
and was last committed at the revision's commit time (so only latest revisions pass), the bucket
join keeps it only if the object's bucket exists, and the metadata join turns it into one row per
metadata entry (none if there are no entries). The predicate is tested on each row; each passing
row yields its revision, and a filter that needs distinct results yields each revision id once.

Comparisons order texts by code point and identifiers as signed integers; a text never compares
with an identifier. `in` holds if some listed value is equal, `notIn` if every listed value
compares and differs.

Before any row is read, the regex of every `like` pattern of the predicate is built by the regex
engine, which is not part of this library: a search takes its build step as a parameter
(`RegexBuild`), and a pattern the engine refuses fails the search with the engine's error.

Results are sorted stably by the requested order and cut into pages. Page numbers and sizes are
64-bit words: the first row of a page is at the saturated product of the two, and the page after
the last one is the saturated successor, so no request overflows.
-/

/-- The product of two words, or the largest word when it does not fit. -/
def UInt64.saturatingMul (a b : UInt64) : UInt64 :=
  UInt64.ofNat (min (a.toNat * b.toNat) (UInt64.size - 1))

/-- The sum of two words, or the largest word when it does not fit. -/
def UInt64.saturatingAdd (a b : UInt64) : UInt64 :=
  UInt64.ofNat (min (a.toNat + b.toNat) (UInt64.size - 1))

theorem UInt64.toNat_saturatingMul (a b : UInt64) :
    (a.saturatingMul b).toNat = min (a.toNat * b.toNat) (UInt64.size - 1) := by
  rw [UInt64.saturatingMul, UInt64.toNat_ofNat']
  exact Nat.mod_eq_of_lt (Nat.lt_of_le_of_lt (Nat.min_le_right _ _) (by decide))

theorem UInt64.toNat_saturatingAdd (a b : UInt64) :
    (a.saturatingAdd b).toNat = min (a.toNat + b.toNat) (UInt64.size - 1) := by
  rw [UInt64.saturatingAdd, UInt64.toNat_ofNat']
  exact Nat.mod_eq_of_lt (Nat.lt_of_le_of_lt (Nat.min_le_right _ _) (by decide))

theorem UInt64.toNat_max_one (a : UInt64) : (max a 1).toNat = max a.toNat 1 := by
  have hone : (1 : UInt64).toNat = 1 := rfl
  simp only [max, UInt64.le_iff_toNat_le, hone]
  split <;> rfl

namespace CatalogQuery

/-- A revision with the rows its joins reached. -/
structure Row where
  revision : Revision
  object : Option CatalogObject := none
  bucket : Option Bucket := none
  entry : Option MetadataEntry := none

/-- A value read from a row. -/
inductive Cell where
  | text (s : String)
  | id (n : Int64)

/-- Compares a cell with a scalar of the same type. -/
def Cell.compare : Cell → Scalar → Option Ordering
  | .text a, .text b => some (Ord.compare a b)
  | .id a, .id b => some (Ord.compare a.toInt b.toInt)
  | _, _ => none

/-- The cell of a column in a row, if the row reached the column's relation. -/
def Row.cell (t : Row) (col : Column) : Option Cell :=
  match col.attr with
  | .revisionId => some (.id t.revision.id)
  | .commitTime => some (.id t.revision.commitTime)
  | .objectName => t.object.map fun o => .text o.name
  | .kind => t.object.map fun o => .text o.kind
  | .contentType => t.object.map fun o => .text o.contentType
  | .lastCommitTime => t.object.map fun o => .id o.lastCommitTime
  | .bucketId => t.bucket.map fun b => .id b.id
  | .bucketName => t.bucket.map fun b => .text b.name
  | .metadataKey => t.entry.map fun e => .text e.key
  | .metadataValue => t.entry.map fun e => .text e.value

/-- Whether a cell satisfies `op value`. -/
def Cell.satisfies (cell : Cell) (op : Operator) (value : ConstraintValue) : Bool :=
  match op, value with
  | .isIn, .list xs => xs.any fun x => cell.compare x == some .eq
  | .notIn, .list xs => xs.all fun x => match cell.compare x with
    | some o => o != .eq
    | none => false
  | .like, .single (.text p) | .notLike, .single (.text p) =>
    match cell with
    | .text s => Like.accepts p s != (op == .notLike)
    | .id _ => false
  | op, .single s =>
    match cell.compare s with
    | some o =>
      match op with
      | .eq => o == .eq
      | .ne => o != .eq
      | .gt => o == .gt
      | .gte => o != .lt
      | .lt => o == .lt
      | .lte => o != .gt
      | _ => false
    | none => false
  | _, _ => false

mutual

/-- Whether a row passes a predicate. -/
def Predicate.holds : Predicate → Row → Bool
  | .always, _ => true
  | .never, _ => false
  | .compare col op value, t =>
    match t.cell col with
    | some cell => cell.satisfies op value
    | none => false
  | .and cs, t => Predicate.holdsAll cs t
  | .or cs, t => Predicate.holdsAny cs t

/-- Whether a row passes every predicate of a list. -/
def Predicate.holdsAll : List Predicate → Row → Bool
  | [], _ => true
  | p :: ps, t => p.holds t && Predicate.holdsAll ps t

/-- Whether a row passes some predicate of a list. -/
def Predicate.holdsAny : List Predicate → Row → Bool
  | [], _ => false
  | p :: ps, t => p.holds t || Predicate.holdsAny ps t

end

/-- The `like` patterns of a predicate, found with a work list. -/
def Predicate.patterns (p : Predicate) : List String :=
  go [p] []
where
  go (pending : List Predicate) (acc : List String) : List String :=
    match pending with
    | [] => acc
    | .compare _ op value :: rest =>
      match op.isPattern, value with
      | true, .single (.text s) => go rest (s :: acc)
      | _, _ => go rest acc
    | .and cs :: rest | .or cs :: rest => go (cs ++ rest) acc
    | .always :: rest | .never :: rest => go rest acc
  termination_by Predicate.sizeAll pending
  decreasing_by
    all_goals simp only [Predicate.sizeAll, Predicate.size, Predicate.sizeAll_append]
    all_goals omega

/-- The regex engine's build step: `.ok ()` when it builds the automaton of a regex, or the text
of its error. -/
abbrev RegexBuild := String → Except String Unit

/-- Builds the regex of a `like` pattern, refusing the pattern with the engine's error. -/
def RegexBuild.pattern (build : RegexBuild) (p : String) : Except FilterError Unit :=
  match build (Like.toRegex p) with
  | .ok () => .ok ()
  | .error msg => .error (.invalidPattern msg)

namespace Catalog

/-- The rows that survive joining a relation. -/
def joinRows (c : Catalog) (rows : List Row) : Relation → List Row
  | .catalogObject => rows.filterMap fun t =>
    match c.object? t.revision.bucketId t.revision.name with
    | some o => if o.lastCommitTime == t.revision.commitTime then some { t with object := some o }
                else none
    | none => none
  | .bucket => rows.filterMap fun t =>
    match t.object with
    | some o => (c.bucket? o.bucketId).map fun b => { t with bucket := some b }
    | none => none
  | .metadataEntries => rows.flatMap fun t =>
    t.revision.metadata.map fun e => { t with entry := some e }

/-- The rows of a revision after all joins of a graph. -/
def rowsOf (c : Catalog) (g : JoinGraph) (r : Revision) : List Row :=
  g.joins.foldl (fun rows h => c.joinRows rows h.relation) [{ revision := r }]

/-- The revisions a filter matches, in catalog order, one per passing row (one per id when the
filter needs distinct results), and the record of the count; or the error of a bad pattern. -/
def matching (c : Catalog) (build : RegexBuild) (f : CompiledFilter) :
    Except FilterError (List Revision × LogRecord) := do
  let p := f.predicate
  p.patterns.forM build.pattern
  let distinct := f.needsDistinct
  let (rows, _) := c.revisions.foldl
    (fun (acc : Array Revision × List Int64) r =>
      (c.rowsOf f.graph r).foldl
        (fun (acc : Array Revision × List Int64) t =>
          let (found, seen) := acc
          if !p.holds t then acc
          else if distinct && seen.contains r.id then acc
          else (found.push r, if distinct then r.id :: seen else seen))
        acc)
    (#[], [])
  let record : LogRecord := ⟨.debug, "filter matched " ++ toString rows.size ++ " rows over " ++
    toString c.revisions.length ++ " revisions (distinct: " ++ toString distinct ++ ")"⟩
  return (rows.toList, record)

end Catalog

/-- The orders a search can sort by. -/
inductive OrderBy where
  | keyAsc
  | keyDesc
  | kindAsc
  | kindDesc
  deriving DecidableEq, Repr

namespace OrderBy

/-- The order's name. -/
def name : OrderBy → String
  | .keyAsc => "CATALOG_OBJECT_KEY_ASC"
  | .keyDesc => "CATALOG_OBJECT_KEY_DESC"
  | .kindAsc => "KIND_ASC"
  | .kindDesc => "KIND_DESC"

/-- Every order. -/
def all : List OrderBy := [.keyAsc, .keyDesc, .kindAsc, .kindDesc]

/-- The order of a name, or a message listing the names. -/
def parse (s : String) : Except String OrderBy :=
  match all.find? (·.name == s) with
  | some o => .ok o
  | none => .error ("unknown variant `" ++ s ++ "`, expected one of " ++
      ", ".intercalate (all.map fun o => "`" ++ o.name ++ "`"))

end OrderBy

/-- Compares sort keys `(bucket id, name, revision id)`. -/
def keyOrder (a b : Revision) : Ordering :=
  (Ord.compare a.bucketId.toInt b.bucketId.toInt).then
    ((Ord.compare a.name b.name).then (Ord.compare a.id.toInt b.id.toInt))

/-- The kind of a revision's object, or the empty text if it has none. -/
def Catalog.kindOf (c : Catalog) (r : Revision) : String :=
  ((c.object? r.bucketId r.name).map (·.kind)).getD ""

/-- Sorts revisions stably by an order. -/
def Catalog.sortRevisions (c : Catalog) (order : OrderBy) (rows : List Revision) : List Revision :=
  let byKind (a b : Revision) : Ordering :=
    (Ord.compare (c.kindOf a) (c.kindOf b)).then (keyOrder a b)
  match order with
  | .keyAsc => rows.mergeSort fun a b => keyOrder a b != .gt
  | .keyDesc => rows.mergeSort fun a b => keyOrder b a != .gt
  | .kindAsc => rows.mergeSort fun a b => byKind a b != .gt
  | .kindDesc => rows.mergeSort fun a b => byKind b a != .gt

/-- Which page of how many results to return, in which order. -/
structure PageRequest where
  page : UInt64 := 0
  size : UInt64 := 50
  order : OrderBy := .keyAsc

/-- One page of results; the counts are lengths of the matched rows. -/
structure Page where
  rows : List Revision
  page : UInt64
  size : UInt64
  totalCount : Nat
  totalPages : Nat
  hasNext : Bool
  hasPrevious : Bool

/-- The page as JSON. -/
def Page.toJson (p : Page) : Json :=
  .object [("hasNext", .bool p.hasNext), ("hasPrevious", .bool p.hasPrevious),
    ("page", Json.count p.page.toNat), ("rows", .array (p.rows.map Revision.toJson)),
    ("size", Json.count p.size.toNat), ("totalCount", Json.count p.totalCount),
    ("totalPages", Json.count p.totalPages)]

namespace Catalog

/-- The requested page of the sorted matches; a page size of 0 counts as 1. -/
def findAll (c : Catalog) (build : RegexBuild) (f : CompiledFilter) (req : PageRequest) :
    Except FilterError (Page × LogRecord) := do
  let (rows, record) ← c.matching build f
  let rows := c.sortRevisions req.order rows
  let size := max req.size 1
  let total := rows.length
  let pages := (total + size.toNat - 1) / size.toNat
  return (⟨(rows.drop (req.page.saturatingMul size).toNat).take size.toNat, req.page, size, total,
    pages, (req.page.saturatingAdd 1).toNat < pages, req.page > 0⟩, record)

/-- The number of matches. -/
def count (c : Catalog) (build : RegexBuild) (f : CompiledFilter) :
    Except FilterError (Nat × LogRecord) := do
  let (rows, record) ← c.matching build f
  return (rows.length, record)

end Catalog

end CatalogQuery
