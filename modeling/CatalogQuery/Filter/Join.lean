import CatalogQuery.Filter.Error
import CatalogQuery.Journal
import CatalogQuery.Json.Value

/-!
# Join graphs

A compiled filter reads columns of rows related to each revision: its catalog object, the
object's bucket, and the revision's metadata entries. Each such relation is joined at most once.
A `JoinGraph` lists the joins in creation order; a join's id is its position, and its alias is
the relation's name, `#` and the id.

Joining a relation creates its parent's join first (a bucket is reached through the object). A
relation fans out when it, or a relation on its parent chain, holds many rows per revision; once
such a join exists, results must be made distinct.
-/

namespace CatalogQuery

/-- A relation a filter can join to a revision. -/
inductive Relation where
  | catalogObject
  | bucket
  | metadataEntries
  deriving DecidableEq, Repr

namespace Relation

/-- The relation's name. -/
def name : Relation → String
  | .catalogObject => "catalogObject"
  | .bucket => "bucket"
  | .metadataEntries => "keyValueMetadataList"

/-- Every relation, in catalog order. -/
def all : List Relation := [.catalogObject, .bucket, .metadataEntries]

/-- The relation through which this one is reached, if any. -/
def parent : Relation → Option Relation
  | .bucket => some .catalogObject
  | _ => none

/-- Whether a revision has many rows of the relation (many-to-one otherwise). -/
def oneToMany : Relation → Bool
  | .metadataEntries => true
  | _ => false

/-- The relations this one is reached through, outermost first. -/
def ancestors : Relation → List Relation
  | .bucket => [.catalogObject]
  | _ => []

/-- Whether the relation or one it is reached through is one-to-many. -/
def fansOut (r : Relation) : Bool := (r.ancestors ++ [r]).any oneToMany

/-- The relation of a name, or an unknown-relation error. -/
def parse (s : String) : Except FilterError Relation :=
  match all.find? (·.name == s) with
  | some r => .ok r
  | none => .error (.unknownRelation s)

end Relation

/-- A join of a relation in a graph; its id is its position in the graph. -/
structure JoinHandle where
  id : Nat
  relation : Relation
  deriving DecidableEq, Repr

/-- The join's alias: relation name, `#`, id. -/
def JoinHandle.alias (h : JoinHandle) : String := h.relation.name ++ "#" ++ toString h.id

/-- The joins of a compiled filter, in creation order, and whether rows must be made distinct. -/
structure JoinGraph where
  joins : List JoinHandle
  needsDistinct : Bool
  deriving DecidableEq, Repr

namespace JoinGraph

/-- The graph with no joins. -/
def empty : JoinGraph := ⟨[], false⟩

/-- The join of a relation, if the graph has one. -/
def get? (g : JoinGraph) (r : Relation) : Option JoinHandle := g.joins.find? (·.relation == r)

/-- The number of joins. -/
def size (g : JoinGraph) : Nat := g.joins.length

/-- Whether the graph has a join of the relation. -/
def contains (g : JoinGraph) (r : Relation) : Bool := (g.get? r).isSome

/-- The join of the parent relation of a join, if the graph has one. -/
def parentOf (g : JoinGraph) (h : JoinHandle) : Option JoinHandle :=
  h.relation.parent.bind g.get?

/-- Appends a join of `r`, marks the graph distinct if `r` fans out, and records it. -/
def append (g : JoinGraph) (r : Relation) : JoinHandle × JoinGraph × List LogRecord :=
  let h : JoinHandle := ⟨g.joins.length, r⟩
  let g' : JoinGraph := ⟨g.joins ++ [h], g.needsDistinct || r.fansOut⟩
  (h, g', [⟨.debug, "created join " ++ h.alias ++ " (distinct: " ++ toString g'.needsDistinct ++ ")"⟩])

/-- The graph with a join of `r`, appended if it has none, with the record of the join created. -/
def ensure (g : JoinGraph) (r : Relation) : JoinGraph × List LogRecord :=
  match g.get? r with
  | some _ => (g, [])
  | none => let (_, g', logs) := g.append r; (g', logs)

/-- The join of `r`, created if the graph has none, after the joins of the relations it is
reached through; with the records of the joins created. -/
def join (g : JoinGraph) (r : Relation) : JoinHandle × JoinGraph × List LogRecord :=
  match g.get? r with
  | some h => (h, g, [])
  | none =>
    let (g₁, logs₁) := r.ancestors.foldl
      (fun (acc : JoinGraph × List LogRecord) a =>
        let (g', l) := acc.1.ensure a
        (g', acc.2 ++ l))
      (g, [])
    let (h, g₂, logs₂) := g₁.append r
    (h, g₂, logs₁ ++ logs₂)

/-- The graph as JSON: its joins with alias, parent alias and relation, and the distinct flag. -/
def toJson (g : JoinGraph) : Json :=
  .object [
    ("distinct", .bool g.needsDistinct),
    ("joins", .array (g.joins.map fun h => .object [
      ("alias", .string h.alias),
      ("parent", Json.ofOption (fun p => .string p.alias) (g.parentOf h)),
      ("relation", .string h.relation.name)]))]

end JoinGraph

/-- A join handle as JSON: id, relation, alias and the alias of its parent join in `g`. -/
def JoinHandle.toJson (g : JoinGraph) (h : JoinHandle) : Json :=
  .object [
    ("alias", .string h.alias),
    ("id", Json.count h.id),
    ("parent", Json.ofOption (fun p => .string p.alias) (g.parentOf h)),
    ("relation", .string h.relation.name)]

end CatalogQuery
