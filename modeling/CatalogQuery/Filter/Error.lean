import CatalogQuery.Filter.Field

/-!
# Filter errors

Every way parsing, compiling or evaluating a filter can fail, with its message. Errors the client
can fix by changing the filter are client errors; a missing handler, an unknown relation and a
child index out of range are faults of the caller.
-/

namespace CatalogQuery

/-- Why a filter operation failed. -/
inductive FilterError where
  /-- The expression's shape is wrong. -/
  | malformedExpression (reason : String)
  /-- The operator does not apply to the field. -/
  | unsupportedOperator (field : FieldKind) (op : Operator)
  /-- A constraint names an unknown field or holds a bad value. -/
  | invalidConstraint (field : String) (reason : String)
  /-- A node lies deeper than the limit; the root is at depth 1. -/
  | depthLimitExceeded (depth limit : Nat)
  /-- No handler compiles constraints on this field. -/
  | noHandler (field : FieldKind)
  /-- No relation has this name. -/
  | unknownRelation (name : String)
  /-- A child index outside `[0, len)`. -/
  | childIndexOutOfBounds (index : Int) (len : Nat)
  /-- The payload text could not be read. -/
  | invalidJson (detail : String)
  /-- A `like` pattern could not be compiled. -/
  | invalidPattern (detail : String)

namespace FilterError

/-- The error's message. -/
def message : FilterError → String
  | .malformedExpression reason => "malformed filter expression: " ++ reason
  | .unsupportedOperator field op =>
    "operator '" ++ op.name ++ "' is not supported on field '" ++ field.name ++ "'"
  | .invalidConstraint field reason => "invalid constraint on '" ++ field ++ "': " ++ reason
  | .depthLimitExceeded depth limit =>
    "filter expression nesting depth " ++ toString depth ++ " exceeds the limit of " ++ toString limit
  | .noHandler field => "no filter handler registered for field '" ++ field.name ++ "'"
  | .unknownRelation name => "unknown relation '" ++ name ++ "'"
  | .childIndexOutOfBounds index len =>
    "child index " ++ toString index ++ " out of bounds for combinator with " ++ toString len ++
      " children"
  | .invalidJson detail => "invalid where-argument payload: " ++ detail
  | .invalidPattern detail => "invalid match pattern: " ++ detail

/-- The name of the error's kind. -/
def kind : FilterError → String
  | .malformedExpression .. => "MalformedExpression"
  | .unsupportedOperator .. => "UnsupportedOperator"
  | .invalidConstraint .. => "InvalidConstraint"
  | .depthLimitExceeded .. => "DepthLimitExceeded"
  | .noHandler .. => "NoHandler"
  | .unknownRelation .. => "UnknownRelation"
  | .childIndexOutOfBounds .. => "ChildIndexOutOfBounds"
  | .invalidJson .. => "InvalidJson"
  | .invalidPattern .. => "InvalidPattern"

/-- Whether the client caused the error. -/
def isClientError : FilterError → Bool
  | .noHandler .. | .unknownRelation .. | .childIndexOutOfBounds .. => false
  | _ => true

end FilterError

/-- The operator of a name, or a malformed-expression error. -/
def Operator.parse (s : String) : Except FilterError Operator :=
  match Operator.ofName? s with
  | some op => .ok op
  | none => .error (.malformedExpression ("unknown operator '" ++ s ++ "'"))

/-- The field kind of a name, or an invalid-constraint error. -/
def FieldKind.parse (s : String) : Except FilterError FieldKind :=
  match FieldKind.ofName? s with
  | some k => .ok k
  | none => .error (.invalidConstraint s "unknown field")

/-- Accepts an operator on a field only if the field's kind of value supports it. -/
def checkOperator (field : FieldKind) (op : Operator) : Except FilterError Unit :=
  if field.valueType.supports op then .ok () else .error (.unsupportedOperator field op)

end CatalogQuery
