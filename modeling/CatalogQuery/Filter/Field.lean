import CatalogQuery.Filter.Operator

/-!
# Fields

The fields a filter can constrain: the bucket's id and name, the object's name, kind and content
type, and a metadata entry of the revision, picked by its key. A `FieldKind` names a field; a
`FieldId` is a field as a constraint uses it, with the metadata key when there is one.
-/

namespace CatalogQuery

/-- The kinds of field a filter can constrain. -/
inductive FieldKind where
  | bucketId
  | bucketName
  | objectName
  | kind
  | contentType
  | metadata
  deriving DecidableEq, Repr

namespace FieldKind

/-- The field's name in payloads and output. -/
def name : FieldKind → String
  | .bucketId => "bucketId"
  | .bucketName => "bucketName"
  | .objectName => "name"
  | .kind => "kind"
  | .contentType => "contentType"
  | .metadata => "metadata"

/-- Every field kind, in catalog order. -/
def all : List FieldKind := [.bucketId, .bucketName, .objectName, .kind, .contentType, .metadata]

/-- The field kind of a name, if there is one. -/
def ofName? (s : String) : Option FieldKind := all.find? (·.name == s)

/-- The kind of value the field holds. -/
def valueType : FieldKind → ValueType
  | .bucketId => .identifier
  | .metadata => .keyValue
  | _ => .text

/-- The operators the field accepts, in catalog order. -/
def allowedOperators (k : FieldKind) : List Operator := k.valueType.operators

/-- The field kind's label in diagnostic text. -/
def label : FieldKind → String
  | .bucketId => "BucketId"
  | .bucketName => "BucketName"
  | .objectName => "ObjectName"
  | .kind => "Kind"
  | .contentType => "ContentType"
  | .metadata => "HasMetadata"

end FieldKind

/-- A field as a constraint names it; a metadata field carries its key. -/
inductive FieldId where
  | bucketId
  | bucketName
  | objectName
  | kind
  | contentType
  | metadata (key : String)
  deriving DecidableEq, Repr

namespace FieldId

/-- The kind of the field. -/
def toKind : FieldId → FieldKind
  | .bucketId => .bucketId
  | .bucketName => .bucketName
  | .objectName => .objectName
  | .kind => .kind
  | .contentType => .contentType
  | .metadata _ => .metadata

/-- The field's text: its kind's name, or `metadata[key]`. -/
def display : FieldId → String
  | .metadata key => "metadata[" ++ key ++ "]"
  | f => f.toKind.name

/-- The field of a kind; a metadata field takes the given key. -/
def ofKind (k : FieldKind) (key : String) : FieldId :=
  match k with
  | .bucketId => .bucketId
  | .bucketName => .bucketName
  | .objectName => .objectName
  | .kind => .kind
  | .contentType => .contentType
  | .metadata => .metadata key

end FieldId

end CatalogQuery
