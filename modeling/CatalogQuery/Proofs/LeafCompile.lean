import CatalogQuery.Filter.Handler
import CatalogQuery.Proofs.JoinGraph

/-!
# Compiling one constraint

What the compiler does with a single constraint, said once so that later proofs never open
`Constraint.compilePredicate` or `Registry.dispatch` again.

A constraint is refused with the error of the first check it fails (`Constraint.violation`): its
field has a handler, the operator applies to the field, the value fits (`Constraint.ValueFits`),
and a metadata key is not empty. A refused constraint leaves the join graph as it was. An accepted
one becomes a leaf whose predicate reads the joins of the relations it asks for
(`Constraint.relations`), joined in that order.
-/

namespace CatalogQuery

/-! ### Running compilation steps -/

namespace BuildM

theorem run_bind {α β : Type} (x : BuildM α) (f : α → BuildM β) (b : Build) :
    (x >>= f).run.run b = match x.run.run b with
      | (.ok a, b') => (f a).run.run b'
      | (.error e, b') => (.error e, b') := by
  simp only [ExceptT.run_bind, StateT.run_bind]
  rcases x.run.run b with ⟨_ | a, b'⟩ <;> rfl

theorem run_bind_ok {α β : Type} {x : BuildM α} {b b' : Build} {a : α}
    (h : x.run.run b = (.ok a, b')) (f : α → BuildM β) : (x >>= f).run.run b = (f a).run.run b' := by
  rw [run_bind, h]

theorem run_bind_error {α β : Type} {x : BuildM α} {b b' : Build} {e : FilterError}
    (h : x.run.run b = (.error e, b')) (f : α → BuildM β) : (x >>= f).run.run b = (.error e, b') := by
  rw [run_bind, h]

theorem run_map {α β : Type} (f : α → β) (x : BuildM α) (b : Build) :
    (f <$> x).run.run b = match x.run.run b with
      | (.ok a, b') => (.ok (f a), b')
      | (.error e, b') => (.error e, b') := by
  simp only [ExceptT.run_map, StateT.run_map]
  rcases x.run.run b with ⟨_ | a, b'⟩ <;> rfl

theorem run_pure {α : Type} (a : α) (b : Build) : (pure a : BuildM α).run.run b = (.ok a, b) := rfl

theorem run_throw {α : Type} (e : FilterError) (b : Build) :
    (throw e : BuildM α).run.run b = (.error e, b) := rfl

theorem run_log (level : LogLevel) (m : String) (b : Build) :
    (log level m).run.run b = (.ok (), { b with journal := b.journal.push ⟨level, m⟩ }) := rfl

theorem run_log_bind {α : Type} (level : LogLevel) (m : String) (f : Unit → BuildM α)
    (b : Build) :
    (log level m >>= f).run.run b = (f ()).run.run { b with journal := b.journal.push ⟨level, m⟩ } := by
  rw [run_bind, run_log]

theorem run_check (r : Except FilterError Unit) (b : Build) : (check r).run.run b = (r, b) := by
  cases r <;> rfl

theorem run_join (r : Relation) (b : Build) :
    (join r).run.run b = (.ok (b.graph.join r).1,
      ⟨(b.graph.join r).2.1, (b.graph.join r).2.2.foldl Array.push b.journal⟩) := rfl

theorem run_joinByName (name : String) (b : Build) :
    (joinByName name).run.run b = match Relation.parse name with
      | .ok r => (join r).run.run b
      | .error e => (.error e, b) := by
  unfold joinByName
  cases Relation.parse name <;> rfl

end BuildM

/-! ### The checks of a constraint -/

/-- The scalars of a value: the one scalar, or the listed ones. -/
def ConstraintValue.scalars : ConstraintValue → List Scalar
  | .single s => [s]
  | .list xs => xs

/-- Whether the value is a list. -/
def ConstraintValue.isList : ConstraintValue → Bool
  | .single _ => false
  | .list _ => true

/-- The type name of the scalars a field takes: identifiers for the bucket id, texts otherwise. -/
def FieldKind.scalarType (k : FieldKind) : String :=
  if k.valueType = .identifier then "identifier" else "text"

/-- Whether the scalar is an identifier. -/
def Scalar.isId : Scalar → Bool
  | .id _ => true
  | .text _ => false

theorem Operator.takesList_iff (op : Operator) : op.takesList = true ↔ op = .isIn ∨ op = .notIn := by
  cases op <;> simp [Operator.takesList]

theorem Scalar.typeName_eq_scalarType (s : Scalar) (k : FieldKind) :
    s.typeName = k.scalarType ↔ s.isId = (k == .bucketId) := by
  cases s <;> cases k <;> simp [Scalar.typeName, FieldKind.scalarType, FieldKind.valueType, Scalar.isId]

/-! ### Registries of built-in handlers -/

theorem Registry.LeafOnly.compile_eq {R : Registry} (hR : R.LeafOnly) {k : FieldKind} {h : Handler}
    (hr : R.handlerFor? k = some h) : h.compile = Constraint.compilePredicate :=
  hR h (List.mem_of_find?_eq_some hr)

theorem Registry.leafOnly_standard : Registry.standard.LeafOnly := by
  intro h hh
  obtain ⟨k, -, rfl⟩ := List.mem_map.1 hh
  rfl

namespace Constraint

/-- The error for the first check the value fails, in order: a list exactly for `in` and `notIn`,
no empty list, then the first scalar whose type is not the field's. -/
def valueError? (c : Constraint) : Option FilterError :=
  let expected := c.field.toKind.scalarType
  if c.op.takesList && !c.value.isList then
    some (c.invalid ("'" ++ c.op.name ++ "' takes a list of values"))
  else if !c.op.takesList && c.value.isList then
    some (c.invalid ("'" ++ c.op.name ++ "' takes a single value"))
  else if c.value = .list [] then
    some (c.invalid ("'" ++ c.op.name ++ "' needs at least one value"))
  else (c.value.scalars.find? (·.typeName ≠ expected)).map fun s =>
    c.invalid ("expected " ++ expected ++ " value, got " ++ s.typeName)

theorem forM_check (c : Constraint) (expected : String) (xs : List Scalar) :
    (xs.forM fun s : Scalar =>
        if s.typeName = expected then (.ok () : Except FilterError Unit)
        else .error (c.invalid ("expected " ++ expected ++ " value, got " ++ s.typeName))) =
      match xs.find? (·.typeName ≠ expected) with
      | some s => .error (c.invalid ("expected " ++ expected ++ " value, got " ++ s.typeName))
      | none => .ok () := by
  induction xs with
  | nil => rfl
  | cons x xs ih =>
    by_cases hx : x.typeName = expected
    · rw [List.forM]
      simp only [hx, if_true, List.find?_cons, ne_eq, not_true_eq_false, decide_false]
      exact ih
    · simp [hx]
      rfl

theorem validate_eq (c : Constraint) :
    c.validate = match c.valueError? with
      | some e => .error e
      | none => .ok () := by
  unfold validate valueError? FieldKind.scalarType
  rcases hv : c.value with s | _ | ⟨x, xs⟩ <;> cases hl : c.op.takesList <;>
    simp [ConstraintValue.isList, ConstraintValue.scalars, forM_check]
  case single.false =>
    by_cases h : s.typeName = (if c.field.toKind.valueType = .identifier then "identifier" else "text")
    · simp only [h, if_true, Option.map_none]
    · simp only [h, if_false, Option.map_some]
  case list.cons.true => cases List.find? _ (x :: xs) <;> rfl

/-! ### Compiling a leaf -/

/-- The error for the first check a leaf makes, in order: the operator applies to the field, the
value fits, a metadata key is not empty. -/
def leafError? (c : Constraint) : Option FilterError :=
  if !c.field.toKind.valueType.supports c.op then some (.unsupportedOperator c.field.toKind c.op)
  else match c.valueError? with
    | some e => some e
    | none => if c.field = .metadata "" then some (c.invalid "metadata key must not be empty") else none

/-- The relations a leaf asks the graph for, in order. -/
def relations (c : Constraint) : List Relation :=
  match c.field with
  | .bucketId | .bucketName => [.bucket]
  | .objectName | .kind | .contentType => [.catalogObject]
  | .metadata _ => [.catalogObject, .metadataEntries]

/-- The predicate of a leaf whose joins are those of `g`. -/
def leafPredicate (c : Constraint) (g : JoinGraph) : Predicate :=
  match c.field with
  | .metadata key => .and [
      .compare ⟨g.get? .metadataEntries, .metadataKey⟩ .eq (.single (.text key)),
      .compare ⟨g.get? .metadataEntries, .metadataValue⟩ c.op c.value]
  | f => .compare ⟨f.toKind.attribute.owner.bind g.get?, f.toKind.attribute⟩ c.op c.value

theorem compilePredicate_run_of_error {c : Constraint} {e : FilterError}
    (h : c.leafError? = some e) (b : Build) : c.compilePredicate.run.run b = (.error e, b) := by
  unfold compilePredicate
  rw [BuildM.run_bind, BuildM.run_check]
  unfold leafError? at h
  unfold checkOperator
  by_cases hs : c.field.toKind.valueType.supports c.op
  · simp only [hs, if_true, Bool.not_true, Bool.false_eq_true, if_false] at h ⊢
    rw [BuildM.run_bind, BuildM.run_check, validate_eq]
    cases hv : c.valueError? with
    | some e' => simp_all
    | none =>
      simp only [hv] at h ⊢
      split at h
      · rename_i hk
        simp only [Option.some.injEq] at h
        subst h
        rw [hk]
        rfl
      · exact absurd h (by simp)
  · simp only [hs, Bool.false_eq_true, if_false, Bool.not_false, if_true, Option.some.injEq] at h ⊢
    rw [h]

theorem compilePredicate_run_of_ok {c : Constraint} (h : c.leafError? = none) (b : Build) :
    ∃ j, c.compilePredicate.run.run b =
      (.ok (c.leafPredicate (b.graph.joinAll c.relations)), ⟨b.graph.joinAll c.relations, j⟩) := by
  unfold leafError? at h
  have hs : c.field.toKind.valueType.supports c.op = true := by
    cases hn : c.field.toKind.valueType.supports c.op
    · simp [hn] at h
    · rfl
  have hv : c.valueError? = none := by
    cases hv : c.valueError? <;> simp_all
  simp only [hs, hv, Bool.not_true, Bool.false_eq_true, if_false] at h
  unfold compilePredicate
  rw [BuildM.run_bind, BuildM.run_check]
  simp only [checkOperator, hs, if_true]
  rw [BuildM.run_bind, BuildM.run_check, validate_eq, hv]
  obtain ⟨f, op, v⟩ := c
  cases f with
  | metadata key =>
    have hk : key.isEmpty = false := by
      cases hke : key.isEmpty
      · rfl
      · have : key = "" := String.isEmpty_iff.1 hke
        simp [this] at h
    simp only [hk, Bool.false_eq_true, if_false, BuildM.run_bind, BuildM.run_join, BuildM.run_pure,
      relations, JoinGraph.joinAll, List.foldl, leafPredicate, JoinGraph.get?_join]
    exact ⟨_, rfl⟩
  | _ =>
    simp only [FieldId.toKind, FieldKind.attribute, Attribute.owner, BuildM.run_bind,
      BuildM.run_join, BuildM.run_pure, relations, JoinGraph.joinAll, List.foldl, leafPredicate,
      Option.bind, JoinGraph.get?_join]
    exact ⟨_, rfl⟩

/-- The error for the first check a registry makes of a constraint: its field has a handler,
then the leaf's own checks. -/
def violation (R : Registry) (c : Constraint) : Option FilterError :=
  match R.handlerFor? c.field.toKind with
  | none => some (.noHandler c.field.toKind)
  | some _ => c.leafError?

/-- A field without a handler is refused with an error record, the join graph as it was. -/
theorem dispatch_run_of_none {R : Registry} {c : Constraint}
    (h : R.handlerFor? c.field.toKind = none) (b : Build) :
    ∃ j, (R.dispatch c).run.run b = (.error (.noHandler c.field.toKind), { b with journal := j }) := by
  unfold Registry.dispatch
  simp only [h]
  rw [BuildM.run_bind, BuildM.run_log]
  exact ⟨_, rfl⟩

/-- Dispatching runs the compile action of the field's handler. -/
theorem dispatch_of_some {R : Registry} {c : Constraint} {h : Handler}
    (hr : R.handlerFor? c.field.toKind = some h) : R.dispatch c = .leaf c <$> h.compile c := by
  unfold Registry.dispatch
  simp only [hr]

theorem dispatch_run_of_error {R : Registry} (hR : R.LeafOnly) {c : Constraint} {e : FilterError}
    (h : c.violation R = some e) (b : Build) :
    ∃ j, (R.dispatch c).run.run b = (.error e, { b with journal := j }) := by
  unfold violation at h
  cases hr : R.handlerFor? c.field.toKind with
  | none =>
    simp only [hr, Option.some.injEq] at h
    subst h
    exact dispatch_run_of_none hr b
  | some x =>
    simp only [hr] at h
    rw [dispatch_of_some hr, hR.compile_eq hr, BuildM.run_map, compilePredicate_run_of_error h b]
    exact ⟨b.journal, rfl⟩

theorem dispatch_run_of_ok {R : Registry} (hR : R.LeafOnly) {c : Constraint}
    (h : c.violation R = none) (b : Build) :
    ∃ j, (R.dispatch c).run.run b =
      (.ok (.leaf c (c.leafPredicate (b.graph.joinAll c.relations))),
        ⟨b.graph.joinAll c.relations, j⟩) := by
  unfold violation at h
  cases hr : R.handlerFor? c.field.toKind with
  | none => simp [hr] at h
  | some x =>
    simp only [hr] at h
    obtain ⟨j, hj⟩ := compilePredicate_run_of_ok h b
    rw [dispatch_of_some hr, hR.compile_eq hr, BuildM.run_map, hj]
    exact ⟨j, rfl⟩

/-- Whatever the handler, what a dispatch returns is a leaf that keeps its constraint. -/
theorem dispatch_run_leaf {R : Registry} {c : Constraint} {b b' : Build} {s : Specification}
    (h : (R.dispatch c).run.run b = (.ok s, b')) : ∃ p, s = .leaf c p := by
  cases hr : R.handlerFor? c.field.toKind with
  | none =>
    obtain ⟨j, hj⟩ := dispatch_run_of_none hr b
    rw [hj] at h
    cases h
  | some x =>
    rw [dispatch_of_some hr, BuildM.run_map] at h
    rcases hx : (x.compile c).run.run b with ⟨_ | p, b₁⟩ <;> rw [hx] at h <;> cases h
    exact ⟨p, rfl⟩

/-- A value fits its constraint: a list exactly for `in` and `notIn`, no empty list, and every
scalar an identifier on the bucket id and a text on every other field. -/
structure ValueFits (c : Constraint) : Prop where
  shape : c.value.isList = c.op.takesList
  nonempty : c.value ≠ .list []
  typed : ∀ s ∈ c.value.scalars, s.isId = (c.field.toKind == .bucketId)

theorem valueError?_eq_none_iff (c : Constraint) : c.valueError? = none ↔ c.ValueFits := by
  unfold valueError?
  constructor
  · intro h
    have shape : c.value.isList = c.op.takesList := by
      cases hv : c.value.isList <;> cases ho : c.op.takesList <;> simp_all
    have nonempty : c.value ≠ .list [] := by
      intro he
      simp_all [ConstraintValue.isList]
    simp only [shape, Bool.not_and_self, Bool.false_eq_true, if_false, nonempty, Bool.and_not_self,
      Option.map_eq_none_iff, List.find?_eq_none, decide_eq_true_eq, not_not] at h
    exact ⟨shape, nonempty, fun s hs => (Scalar.typeName_eq_scalarType s _).1 (h s hs)⟩
  · rintro ⟨shape, nonempty, typed⟩
    simp only [shape, Bool.not_and_self, Bool.false_eq_true, if_false, nonempty, Bool.and_not_self,
      Option.map_eq_none_iff, List.find?_eq_none, decide_eq_true_eq, not_not]
    exact fun s hs => (Scalar.typeName_eq_scalarType s _).2 (typed s hs)

end Constraint

end CatalogQuery
