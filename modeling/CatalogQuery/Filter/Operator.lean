/-!
# Operators

The ten comparison operators of a filter and the kinds of value they apply to. Ordering
operators apply to every value; `like` and `notLike` match text patterns and so apply to text and
key/value fields; `in` and `notIn` test membership in a list of identifiers.
-/

namespace CatalogQuery

/-- A comparison operator of a filter. -/
inductive Operator where
  | eq
  | ne
  | gt
  | gte
  | lt
  | lte
  | like
  | notLike
  | isIn
  | notIn
  deriving DecidableEq, Repr

namespace Operator

/-- The operator's name in payloads and output. -/
def name : Operator → String
  | .eq => "eq"
  | .ne => "ne"
  | .gt => "gt"
  | .gte => "gte"
  | .lt => "lt"
  | .lte => "lte"
  | .like => "like"
  | .notLike => "notLike"
  | .isIn => "in"
  | .notIn => "notIn"

/-- Every operator, in catalog order. -/
def all : List Operator := [.eq, .ne, .gt, .gte, .lt, .lte, .like, .notLike, .isIn, .notIn]

/-- The operator of a name, if there is one. -/
def ofName? (s : String) : Option Operator := all.find? (·.name == s)

/-- The operators that compare by order. -/
def ordered : List Operator := [.eq, .ne, .gt, .gte, .lt, .lte]

/-- Whether the operator takes a list of values (`in`, `notIn`). -/
def takesList : Operator → Bool
  | .isIn | .notIn => true
  | _ => false

/-- Whether the operator matches a text pattern (`like`, `notLike`). -/
def isPattern : Operator → Bool
  | .like | .notLike => true
  | _ => false

end Operator

/-- The kind of value a field holds. -/
inductive ValueType where
  | text
  | identifier
  | keyValue
  deriving DecidableEq, Repr

namespace ValueType

/-- The operators a kind of value accepts, in catalog order. -/
def operators : ValueType → List Operator
  | .text | .keyValue => Operator.ordered ++ [.like, .notLike]
  | .identifier => Operator.ordered ++ [.isIn, .notIn]

/-- Whether a kind of value accepts an operator. -/
def supports : ValueType → Operator → Bool
  | .text, op | .keyValue, op => !op.takesList
  | .identifier, op => !op.isPattern

end ValueType

end CatalogQuery
