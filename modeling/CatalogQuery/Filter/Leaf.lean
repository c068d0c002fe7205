import CatalogQuery.Filter.Specification
import CatalogQuery.Filter.Build

/-!
# Leaf compilation

A constraint compiles to a comparison of one column. The operator must apply to the field and
the value must fit both, before any join is made, so a refused constraint leaves the graph as it
was. A field of the object or the bucket compares the column of that join. A metadata field
joins the object (only the latest revision of an object has one) and then the metadata entries,
and tests the key and the value on the same entry.
-/

namespace CatalogQuery

/-- The attribute a field other than metadata compares. -/
def FieldKind.attribute : FieldKind → Attribute
  | .bucketId => .bucketId
  | .bucketName => .bucketName
  | .objectName => .objectName
  | .kind => .kind
  | .contentType => .contentType
  | .metadata => .metadataValue

/-- Lifts a check into a compilation step. -/
def BuildM.check (r : Except FilterError Unit) : BuildM Unit :=
  match r with
  | .ok () => pure ()
  | .error e => throw e

/-- Compiles one constraint into the predicate of its leaf specification, joining what the
predicate reads. -/
def Constraint.compilePredicate (c : Constraint) : BuildM Predicate := do
  BuildM.check (checkOperator c.field.toKind c.op)
  BuildM.check c.validate
  match c.field with
  | .metadata key =>
    if key.isEmpty then throw (c.invalid "metadata key must not be empty")
    let _ ← BuildM.join .catalogObject
    let entries ← BuildM.join .metadataEntries
    return .and [
      .compare ⟨some entries, .metadataKey⟩ .eq (.single (.text key)),
      .compare ⟨some entries, .metadataValue⟩ c.op c.value]
  | field =>
    let attr := field.toKind.attribute
    match attr.owner with
    | some r =>
      let h ← BuildM.join r
      return .compare ⟨some h, attr⟩ c.op c.value
    | none => return .compare ⟨none, attr⟩ c.op c.value

end CatalogQuery
