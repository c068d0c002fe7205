import CatalogQuery.Filter.Expression
import CatalogQuery.Json.Write

/-!
# Where-arguments

The payload form of a filter. Each node is a record of optional members: `andArg` and `orArg`
hold child nodes, one member per field (`bucketIdArg`, …, `metadataArg`) holds operator
arguments, and members of other names are kept as they were read. A well-formed node sets exactly
one member, and operator arguments name exactly one operator.

`WhereArgs.toExpression` turns a node into a filter expression, refusing nodes deeper than a
limit (the root is at depth 1); each node is checked in this order: depth, unknown members (the
first name in sorted order), the number of members set, then its operator arguments or children.
`WhereArgs.toJson` writes a node back as JSON.
-/

namespace CatalogQuery

/-- Operator arguments: operator names with their operands, in name order. -/
structure OperatorArgs where
  members : List (String × Json)

/-- Operator arguments of a metadata field: the entry's key and the test on its value. -/
structure MetadataArgs where
  key : String
  value : OperatorArgs

/-- A node of a where-argument payload. -/
structure WhereArgs where
  andArg : Option (List WhereArgs) := none
  orArg : Option (List WhereArgs) := none
  bucketIdArg : Option OperatorArgs := none
  bucketNameArg : Option OperatorArgs := none
  nameArg : Option OperatorArgs := none
  kindArg : Option OperatorArgs := none
  contentTypeArg : Option OperatorArgs := none
  metadataArg : Option MetadataArgs := none
  /-- Members of other names, in name order. -/
  unknown : List (String × Json) := []

namespace OperatorArgs

/-- Arguments naming one operator. -/
def single (op : Operator) (value : Json) : OperatorArgs := ⟨[(op.name, value)]⟩

/-- The arguments as a JSON object. -/
def toJson (a : OperatorArgs) : Json := .object a.members

/-- A JSON operand as a scalar of a constraint on `field`. -/
def scalar (field : FieldId) : Json → Except FilterError Scalar
  | .string s => .ok (.text s)
  | .number n =>
    match n.toInt64? with
    | some i => .ok (.id i)
    | none => .error (.invalidConstraint field.display ("'" ++ n.render ++ "' is not an identifier"))
  | other => .error (.invalidConstraint field.display ("unsupported value " ++ other.render))

/-- The constraint the arguments state on `field`. -/
def toConstraint (a : OperatorArgs) (field : FieldId) : Except FilterError Constraint :=
  match a.members with
  | [(name, operand)] => do
    let op ← Operator.parse name
    let value ← match operand with
      | .array items => ConstraintValue.list <$> items.mapM (scalar field)
      | other => ConstraintValue.single <$> scalar field other
    return ⟨field, op, value⟩
  | members =>
    .error (.malformedExpression ("argument for '" ++ field.display ++
      "' must set exactly one operator, found " ++ toString members.length))

end OperatorArgs

/-- The metadata arguments as JSON. -/
def MetadataArgs.toJson (m : MetadataArgs) : Json :=
  .object [("key", .string m.key), ("value", m.value.toJson)]

namespace WhereArgs

/-- A node whose only member is an AND of children. -/
def and (cs : List WhereArgs) : WhereArgs := { andArg := some cs }

/-- A node whose only member is an OR of children. -/
def or (cs : List WhereArgs) : WhereArgs := { orArg := some cs }

/-- The field members that are set, in member order, with their fields. -/
def fieldMembers (a : WhereArgs) : List (FieldId × OperatorArgs) :=
  [(FieldId.bucketId, a.bucketIdArg), (.bucketName, a.bucketNameArg), (.objectName, a.nameArg),
    (.kind, a.kindArg), (.contentType, a.contentTypeArg)].filterMap
      (fun (f, m) => m.map fun args => (f, args)) ++
  (a.metadataArg.map fun m => (FieldId.metadata m.key, m.value)).toList

/-- How many of the members that make a node are set. -/
def memberCount (a : WhereArgs) : Nat :=
  (if a.andArg.isSome then 1 else 0) + (if a.orArg.isSome then 1 else 0) + a.fieldMembers.length

mutual

/-- The expression of a node at `depth`, under the nesting limit `limit`. -/
def convert : WhereArgs → Nat → Nat → Except FilterError Expression
  | a@⟨andArg, orArg, _, _, _, _, _, _, unknown⟩, depth, limit =>
    if depth > limit then .error (.depthLimitExceeded depth limit)
    else
      match unknown with
      | (name, _) :: _ => .error (.invalidConstraint name "unknown field")
      | [] =>
        if a.memberCount ≠ 1 then
          .error (.malformedExpression
            ("expected exactly one of a field argument, andArg or orArg, found " ++
              toString a.memberCount))
        else
          match andArg, orArg with
          | some cs, _ => Expression.and <$> convertAll cs (depth + 1) limit
          | none, some cs => Expression.or <$> convertAll cs (depth + 1) limit
          | none, none =>
            match a.fieldMembers with
            | (field, args) :: _ => Expression.constraint <$> args.toConstraint field
            | [] => .error (.malformedExpression
                "expected exactly one of a field argument, andArg or orArg, found 0")

/-- The expressions of a list of nodes, all at `depth`; the first failure wins. -/
def convertAll : List WhereArgs → Nat → Nat → Except FilterError (List Expression)
  | [], _, _ => .ok []
  | a :: rest, depth, limit => do
    let e ← convert a depth limit
    let es ← convertAll rest depth limit
    return e :: es

end

/-- The expression of a payload root under a nesting limit. -/
def toExpression (a : WhereArgs) (limit : Nat) : Except FilterError Expression :=
  a.convert 1 limit

mutual

/-- The node as JSON: the members that are set, and the other members as read. -/
def toJson : WhereArgs → Json
  | ⟨andArg, orArg, bucketId, bucketName, name, kind, contentType, metadata, unknown⟩ =>
    Json.objectOf (
      (match andArg with | some cs => [("andArg", Json.array (toJsonAll cs))] | none => []) ++
      (match orArg with | some cs => [("orArg", Json.array (toJsonAll cs))] | none => []) ++
      [("bucketIdArg", bucketId), ("bucketNameArg", bucketName), ("nameArg", name),
        ("kindArg", kind), ("contentTypeArg", contentType)].filterMap
          (fun (k, m) => m.map fun args => (k, args.toJson)) ++
      (metadata.map fun m => ("metadataArg", m.toJson)).toList ++
      unknown)

/-- The JSON of each node, in order. -/
def toJsonAll : List WhereArgs → List Json
  | [] => []
  | a :: rest => a.toJson :: toJsonAll rest

end

end WhereArgs

end CatalogQuery
