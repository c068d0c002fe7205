import CatalogQuery.Filter.Leaf

/-!
# Handler registries

A handler claims one field and compiles the constraints on it, against the shared join graph,
into the predicate of their leaf. The built-in handler of a field (`Handler.leaf`) compiles with
`Constraint.compilePredicate`; any other handler brings its own compile action and its own
diagnostic form.

A registry lists handlers in registration order. The first registration of a field wins: a
later one of the same field is kept but never used, and registering it says so (`register`
answers `false` and writes a warning). A constraint on a field without a handler is refused with
an error record.
-/

namespace CatalogQuery

/-- A handler of one field: the field it claims, its diagnostic form, and how it compiles a
constraint on that field into the predicate of the constraint's leaf. -/
structure Handler where
  field : FieldKind
  describe : String
  compile : Constraint → BuildM Predicate

/-- The built-in handler of a field. -/
def Handler.leaf (k : FieldKind) : Handler where
  field := k
  describe := "LeafFilterHandler \x7b field: " ++ k.label ++ " \x7d"
  compile := Constraint.compilePredicate

/-- Handlers in registration order. -/
structure Registry where
  handlers : List Handler

namespace Registry

/-- The registry with no handler. -/
def empty : Registry := ⟨[]⟩

/-- The first handler registered for a field, if any. -/
def handlerFor? (r : Registry) (k : FieldKind) : Option Handler := r.handlers.find? (·.field == k)

/-- Adds a handler; answers whether it is the first for its field, with a warning if not. -/
def register (r : Registry) (h : Handler) : Registry × Bool × List LogRecord :=
  let shadowed := (r.handlerFor? h.field).isSome
  let logs := if shadowed then
      [⟨.warn, "handler " ++ h.describe ++ " for field '" ++ h.field.name ++
        "' is shadowed by an earlier registration"⟩]
    else []
  (⟨r.handlers ++ [h]⟩, !shadowed, logs)

/-- The registry with the built-in handler of every field, in catalog order. -/
def standard : Registry := ⟨FieldKind.all.map Handler.leaf⟩

/-- The number of handlers registered. -/
def size (r : Registry) : Nat := r.handlers.length

/-- The fields that have a handler, in catalog order. -/
def fields (r : Registry) : List FieldKind :=
  FieldKind.all.filter fun k => (r.handlerFor? k).isSome

/-- Compiles a constraint with the handler of its field, into the leaf of the constraint. -/
def dispatch (r : Registry) (c : Constraint) : BuildM Specification :=
  match r.handlerFor? c.field.toKind with
  | some h => .leaf c <$> h.compile c
  | none => do
    BuildM.log .error ("no filter handler registered for field '" ++ c.field.toKind.name ++ "'")
    throw (.noHandler c.field.toKind)

/-- Every handler of the registry compiles as the built-in handler does. -/
def LeafOnly (r : Registry) : Prop := ∀ h ∈ r.handlers, h.compile = Constraint.compilePredicate

end Registry

end CatalogQuery
