import CatalogQuery.Filter.Predicate

/-!
# Specifications

A specification is the compiled form of a filter expression, node for node: a leaf keeps its
constraint and the predicate compiled for it, an AND or OR node keeps its children, and the
default specification (no filter at all) accepts every row.

The predicate of an AND is the AND of its children's predicates, `true` when it has none; the
predicate of an OR is the OR of theirs, `false` when it has none.
-/

namespace CatalogQuery

/-- A compiled filter tree. -/
inductive Specification where
  | leaf (c : Constraint) (p : Predicate)
  | and (children : List Specification)
  | or (children : List Specification)
  | default
  deriving Repr

namespace Specification

/-- The children of a node; leaves and the default have none. -/
def children : Specification → List Specification
  | .and cs | .or cs => cs
  | _ => []

/-- The child at `index`, counting from 0, or an error naming the index and the child count. -/
def childAt (cs : List Specification) (index : Int) : Except FilterError Specification :=
  if index < 0 then .error (.childIndexOutOfBounds index cs.length)
  else
    match cs[index.toNat]? with
    | some c => .ok c
    | none => .error (.childIndexOutOfBounds index cs.length)

/-- The child of a node at `index`. -/
def child (s : Specification) (index : Int) : Except FilterError Specification :=
  childAt s.children index

/-- Whether the node is an AND. -/
def isAnd : Specification → Bool
  | .and _ => true
  | _ => false

/-- Whether the node is an OR. -/
def isOr : Specification → Bool
  | .or _ => true
  | _ => false

/-- Whether the node is the default specification. -/
def isDefault : Specification → Bool
  | .default => true
  | _ => false

mutual

/-- The predicate the specification tests. -/
def predicate : Specification → Predicate
  | .leaf _ p => p
  | .and [] => .always
  | .and (c :: cs) => .and (predicateAll (c :: cs))
  | .or [] => .never
  | .or (c :: cs) => .or (predicateAll (c :: cs))
  | .default => .always

/-- The predicates of a list of specifications, in order. -/
def predicateAll : List Specification → List Predicate
  | [] => []
  | s :: ss => s.predicate :: predicateAll ss

end

mutual

/-- The specification as JSON. -/
def toJson : Specification → Json
  | .leaf c p =>
    .object [("field", .string c.field.display), ("predicate", p.toJson), ("type", .string "leaf")]
  | .and cs => .object [("children", .array (toJsonAll cs)), ("type", .string "and")]
  | .or cs => .object [("children", .array (toJsonAll cs)), ("type", .string "or")]
  | .default => .object [("type", .string "default")]

/-- The JSON of each specification, in order. -/
def toJsonAll : List Specification → List Json
  | [] => []
  | s :: ss => s.toJson :: toJsonAll ss

end

end Specification

end CatalogQuery
