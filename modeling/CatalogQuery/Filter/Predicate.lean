import CatalogQuery.Filter.Expression
import CatalogQuery.Filter.Join

/-!
# Predicates

A predicate is the boolean test a compiled filter applies to each joined row: constants, a
comparison of one column with a value, and AND and OR of predicates. A column is an attribute of
a join's relation (`alias.attribute`) or of the revision itself (`revision.attribute`).

`Predicate.comparisonCount` counts the comparisons with a work list, one node at a time;
`Predicate.compares` counts them by recursion on the tree.
-/

namespace CatalogQuery

/-- An attribute a predicate can read. -/
inductive Attribute where
  | revisionId
  | commitTime
  | objectName
  | kind
  | contentType
  | lastCommitTime
  | bucketId
  | bucketName
  | metadataKey
  | metadataValue
  deriving DecidableEq, Repr

namespace Attribute

/-- The attribute's name in column text. -/
def name : Attribute → String
  | .revisionId => "id"
  | .commitTime => "commitTime"
  | .objectName => "name"
  | .kind => "kind"
  | .contentType => "contentType"
  | .lastCommitTime => "lastCommitTime"
  | .bucketId => "id"
  | .bucketName => "bucketName"
  | .metadataKey => "key"
  | .metadataValue => "value"

/-- The relation that holds the attribute; revision attributes have none. -/
def owner : Attribute → Option Relation
  | .revisionId | .commitTime => none
  | .objectName | .kind | .contentType | .lastCommitTime => some .catalogObject
  | .bucketId | .bucketName => some .bucket
  | .metadataKey | .metadataValue => some .metadataEntries

end Attribute

/-- An attribute read through a join, or of the revision when there is no join. -/
structure Column where
  join : Option JoinHandle
  attr : Attribute
  deriving DecidableEq, Repr

/-- The column's text: `alias.attribute`, or `revision.attribute`. -/
def Column.display (c : Column) : String :=
  match c.join with
  | some h => h.alias ++ "." ++ c.attr.name
  | none => "revision." ++ c.attr.name

/-- A test on joined rows. -/
inductive Predicate where
  | always
  | never
  | compare (column : Column) (op : Operator) (value : ConstraintValue)
  | and (children : List Predicate)
  | or (children : List Predicate)
  deriving Repr

/-- A scalar as JSON: a string or an integer. -/
def Scalar.toJson : Scalar → Json
  | .text s => .string s
  | .id n => Json.int n

namespace Predicate

mutual

/-- The predicate as JSON. -/
def toJson : Predicate → Json
  | .always => .object [("type", .string "true")]
  | .never => .object [("type", .string "false")]
  | .compare column op (.single s) =>
    .object [("term", .string column.display), ("type", .string op.name), ("value", s.toJson)]
  | .compare column op (.list xs) =>
    .object [("term", .string column.display), ("type", .string op.name),
      ("values", .array (xs.map Scalar.toJson))]
  | .and cs => .object [("children", .array (toJsonAll cs)), ("type", .string "and")]
  | .or cs => .object [("children", .array (toJsonAll cs)), ("type", .string "or")]

/-- The JSON of each predicate, in order. -/
def toJsonAll : List Predicate → List Json
  | [] => []
  | p :: ps => p.toJson :: toJsonAll ps

end

mutual

/-- The number of comparisons in the tree. -/
def compares : Predicate → Nat
  | .compare .. => 1
  | .and cs | .or cs => comparesAll cs
  | .always | .never => 0

/-- The number of comparisons in a list of trees. -/
def comparesAll : List Predicate → Nat
  | [] => 0
  | p :: ps => p.compares + comparesAll ps

end

mutual

/-- The number of nodes of the tree. -/
def size : Predicate → Nat
  | .and cs | .or cs => 1 + sizeAll cs
  | _ => 1

/-- The number of nodes of a list of trees. -/
def sizeAll : List Predicate → Nat
  | [] => 0
  | p :: ps => p.size + sizeAll ps

end

theorem sizeAll_append (xs ys : List Predicate) : sizeAll (xs ++ ys) = sizeAll xs + sizeAll ys := by
  induction xs with
  | nil => simp [sizeAll]
  | cons x xs ih => simp [sizeAll, ih]; omega

/-- Counts the comparisons of the trees on a work list, adding them to `acc`: each node taken
from the list is counted if it is a comparison and replaced by its children if it is a group. -/
def countPending (pending : List Predicate) (acc : Nat) : Nat :=
  match pending with
  | [] => acc
  | .compare .. :: rest => countPending rest (acc + 1)
  | .and cs :: rest | .or cs :: rest => countPending (cs ++ rest) acc
  | .always :: rest | .never :: rest => countPending rest acc
termination_by sizeAll pending
decreasing_by
  all_goals simp only [sizeAll, size, sizeAll_append]
  all_goals omega

/-- The number of comparisons, counted with a work list. -/
def comparisonCount (p : Predicate) : Nat := countPending [p] 0

end Predicate

end CatalogQuery
