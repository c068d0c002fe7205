import CatalogQuery.Filter.Error
import CatalogQuery.Text.Quoted

/-!
# Filter expressions

A filter expression is a tree: a leaf is a constraint (a field, an operator and a value), an
inner node is an AND or an OR of any number of children. A constraint's value is one scalar or a
list of scalars; a scalar is a text or a 64-bit identifier.

`Constraint.validate` states which values fit: a list exactly for `in` and `notIn`, never an
empty list, identifiers on the bucket id and texts on every other field.
-/

namespace CatalogQuery

/-- A single value: a text or an identifier. -/
inductive Scalar where
  | text (s : String)
  | id (n : Int64)
  deriving DecidableEq, Repr

/-- A constraint's value: one scalar, or a list for `in` and `notIn`. -/
inductive ConstraintValue where
  | single (s : Scalar)
  | list (xs : List Scalar)
  deriving DecidableEq, Repr

/-- A field compared with a value by an operator. -/
structure Constraint where
  field : FieldId
  op : Operator
  value : ConstraintValue
  deriving DecidableEq, Repr

/-- A filter: a constraint, or an AND or OR of sub-filters. -/
inductive Expression where
  | constraint (c : Constraint)
  | and (children : List Expression)
  | or (children : List Expression)
  deriving Repr

namespace Scalar

/-- The name of the scalar's type in messages. -/
def typeName : Scalar → String
  | .text _ => "text"
  | .id _ => "identifier"

/-- The text, if the scalar is one. -/
def asText? : Scalar → Option String
  | .text s => some s
  | .id _ => none

/-- The identifier, if the scalar is one. -/
def asId? : Scalar → Option Int64
  | .id n => some n
  | .text _ => none

/-- The scalar in diagnostic form: `Text("x")` or `Id(5)`. -/
def describe : Scalar → String
  | .text s => "Text(" ++ Text.quoted s ++ ")"
  | .id n => "Id(" ++ toString n.toInt ++ ")"

end Scalar

/-- The value in diagnostic form: `Single(Text("x"))` or `List([Id(1), Id(2)])`. -/
def ConstraintValue.describe : ConstraintValue → String
  | .single s => "Single(" ++ s.describe ++ ")"
  | .list xs => "List([" ++ ", ".intercalate (xs.map Scalar.describe) ++ "])"

namespace Constraint

/-- The constraint as text: field, operator and value in diagnostic form. -/
def display (c : Constraint) : String :=
  c.field.display ++ " " ++ c.op.name ++ " " ++ c.value.describe

/-- The error for a value that does not fit the constraint's field or operator. -/
def invalid (c : Constraint) (reason : String) : FilterError :=
  .invalidConstraint c.field.display reason

/-- Accepts the value if its shape fits the operator and each scalar's type fits the field;
otherwise names the first misfit. -/
def validate (c : Constraint) : Except FilterError Unit :=
  let expected := if c.field.toKind.valueType = .identifier then "identifier" else "text"
  let check (s : Scalar) : Except FilterError Unit :=
    if s.typeName = expected then .ok ()
    else .error (c.invalid ("expected " ++ expected ++ " value, got " ++ s.typeName))
  match c.value, c.op.takesList with
  | .single s, false => check s
  | .list [], true => .error (c.invalid ("'" ++ c.op.name ++ "' needs at least one value"))
  | .list xs, true => xs.forM check
  | .single _, true => .error (c.invalid ("'" ++ c.op.name ++ "' takes a list of values"))
  | .list _, false => .error (c.invalid ("'" ++ c.op.name ++ "' takes a single value"))

end Constraint

namespace Expression

/-- Whether the expression is an AND or an OR. -/
def isGroup : Expression → Bool
  | .constraint _ => false
  | _ => true

/-- The node's label: `constraint`, `and` or `or`. -/
def label : Expression → String
  | .constraint _ => "constraint"
  | .and _ => "and"
  | .or _ => "or"

end Expression

end CatalogQuery
