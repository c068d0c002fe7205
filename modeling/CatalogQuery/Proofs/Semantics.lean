import CatalogQuery.Proofs.Acceptance
import CatalogQuery.Proofs.LikeMatch
import CatalogQuery.Catalog.Search
import Mathlib.Data.String.Basic

/-!
# What a filter expression means

An expression speaks of a binding: the object of a revision, the object's bucket and one of the
revision's metadata entries (`Binding`). Under a binding a constraint compares the value of its
field with its own value: texts lexicographically, identifiers as integers, `like` in the SQL
reading of `Like.Matches`, `in` and `notIn` by membership. A metadata constraint also asks the
entry to carry its key. An AND holds when all its children hold, so an AND of none holds; an OR
when one of them holds, so an OR of none does not (`Expression.Holds`).

`Specification.holds_iff` says that the predicate of a compiled expression holds of a row exactly
when the expression holds of the binding the row shows, for constraints that pass the registry's
checks; `Registry.compileRec_realizes` says that compiling yields such a specification and joins
the relations of the constraints in pre-order.
-/

namespace CatalogQuery

/-- What a filter reads of one revision: its object, the object's bucket and one metadata entry. -/
structure Binding where
  object : CatalogObject
  bucket : Bucket
  entry : MetadataEntry

/-- The value of a field under a binding; a metadata field reads the entry's value. -/
def Binding.read (x : Binding) : FieldId → Scalar
  | .bucketId => .id x.bucket.id
  | .bucketName => .text x.bucket.name
  | .objectName => .text x.object.name
  | .kind => .text x.object.kind
  | .contentType => .text x.object.contentType
  | .metadata _ => .text x.entry.value

namespace Scalar

/-- Texts are ordered lexicographically and identifiers as integers; a text and an identifier
are not ordered. -/
def Lt : Scalar → Scalar → Prop
  | .text s, .text t => s < t
  | .id m, .id n => m.toInt < n.toInt
  | _, _ => False

/-- A value passes an operator against a constraint value. -/
def Sat (x : Scalar) : Operator → ConstraintValue → Prop
  | .eq, .single y => x = y
  | .ne, .single y => x ≠ y
  | .gt, .single y => y.Lt x
  | .gte, .single y => y.Lt x ∨ x = y
  | .lt, .single y => x.Lt y
  | .lte, .single y => x.Lt y ∨ x = y
  | .like, .single (.text p) => ∃ s, x = .text s ∧ Like.Matches p.toList s.toList
  | .notLike, .single (.text p) => ∃ s, x = .text s ∧ ¬ Like.Matches p.toList s.toList
  | .isIn, .list ys => x ∈ ys
  | .notIn, .list ys => x ∉ ys
  | _, _ => False

end Scalar

/-- A constraint holds of a binding when its field's value passes it and, for a metadata field,
the entry carries the key. -/
def Constraint.Holds (c : Constraint) (x : Binding) : Prop :=
  (∀ key, c.field = .metadata key → x.entry.key = key) ∧ (x.read c.field).Sat c.op c.value

namespace Expression

mutual

/-- The direct meaning of an expression under a binding. -/
def Holds : Expression → Binding → Prop
  | .constraint c, x => c.Holds x
  | .and es, x => HoldsAll es x
  | .or es, x => HoldsAny es x

/-- Every expression of the list holds; true of the empty list. -/
def HoldsAll : List Expression → Binding → Prop
  | [], _ => True
  | e :: es, x => e.Holds x ∧ HoldsAll es x

/-- Some expression of the list holds; false of the empty list. -/
def HoldsAny : List Expression → Binding → Prop
  | [], _ => False
  | e :: es, x => e.Holds x ∨ HoldsAny es x

end

mutual

/-- The constraints of an expression, in pre-order. -/
def constraints : Expression → List Constraint
  | .constraint c => [c]
  | .and es => constraintsAll es
  | .or es => constraintsAll es

/-- The constraints of a list of expressions, in pre-order. -/
def constraintsAll : List Expression → List Constraint
  | [] => []
  | e :: es => e.constraints ++ constraintsAll es

end

end Expression

/-! ### What an expression reads -/

/-- Two bindings agree on the part of the binding that a field of the kind reads. -/
def Binding.Agree (x y : Binding) : FieldKind → Prop
  | .bucketId | .bucketName => x.bucket = y.bucket
  | .objectName | .kind | .contentType => x.object = y.object
  | .metadata => x.entry = y.entry

theorem Constraint.holds_congr {k : Constraint} {x y : Binding}
    (h : x.Agree y k.field.toKind) : k.Holds x ↔ k.Holds y := by
  obtain ⟨field, op, v⟩ := k
  cases field <;> simp_all [Binding.Agree, FieldId.toKind, Constraint.Holds, Binding.read]

namespace Expression

mutual

/-- An expression holds of two bindings alike when each of its constraints does. -/
theorem holds_congr {x y : Binding} :
    ∀ e : Expression, (∀ k ∈ e.constraints, k.Holds x ↔ k.Holds y) → (e.Holds x ↔ e.Holds y)
  | .constraint c, h => h c (List.mem_singleton_self c)
  | .and es, h => holdsAll_congr es h
  | .or es, h => holdsAny_congr es h

theorem holdsAll_congr {x y : Binding} : ∀ es : List Expression,
    (∀ k ∈ constraintsAll es, k.Holds x ↔ k.Holds y) → (HoldsAll es x ↔ HoldsAll es y)
  | [], _ => Iff.rfl
  | e :: es, h =>
    and_congr (holds_congr e fun k hk => h k (List.mem_append_left _ hk))
      (holdsAll_congr es fun k hk => h k (List.mem_append_right _ hk))

theorem holdsAny_congr {x y : Binding} : ∀ es : List Expression,
    (∀ k ∈ constraintsAll es, k.Holds x ↔ k.Holds y) → (HoldsAny es x ↔ HoldsAny es y)
  | [], _ => Iff.rfl
  | e :: es, h =>
    or_congr (holds_congr e fun k hk => h k (List.mem_append_left _ hk))
      (holdsAny_congr es fun k hk => h k (List.mem_append_right _ hk))

end

/-- An expression holds of two bindings alike when they agree on every part that its constraints
read. -/
theorem holds_congr_of_agree {e : Expression} {x y : Binding}
    (h : ∀ k ∈ e.constraints, x.Agree y k.field.toKind) : e.Holds x ↔ e.Holds y :=
  e.holds_congr fun k hk => Constraint.holds_congr (h k hk)

/-- Some constraint of the expression reads a field of the object's bucket. -/
def ReadsBucket (e : Expression) : Prop :=
  ∃ k ∈ e.constraints, k.field.toKind = .bucketId ∨ k.field.toKind = .bucketName

/-- Some constraint of the expression reads a metadata entry. -/
def ReadsMetadata (e : Expression) : Prop :=
  ∃ k ∈ e.constraints, k.field.toKind = .metadata

end Expression

/-! ### One comparison -/

/-- The cell that holds a scalar. -/
def Cell.ofScalar : Scalar → Cell
  | .text s => .text s
  | .id n => .id n

theorem Cell.compare_ofScalar {x y : Scalar} (h : y.isId = x.isId) :
    ∃ o, (Cell.ofScalar x).compare y = some o ∧
      (o = .lt ↔ x.Lt y) ∧ (o = .eq ↔ x = y) ∧ (o = .gt ↔ y.Lt x) := by
  cases x with
  | text a =>
    cases y with
    | text b =>
      refine ⟨_, rfl, compare_lt_iff_lt, ?_, compare_gt_iff_gt⟩
      simp
    | id n => simp [Scalar.isId] at h
  | id m =>
    cases y with
    | text b => simp [Scalar.isId] at h
    | id n =>
      refine ⟨_, rfl, compare_lt_iff_lt, ?_, compare_gt_iff_gt⟩
      simp [Int64.toInt_inj]

/-- A cell passes a comparison exactly when its scalar does, for values of the cell's type in
the operator's shape, and a pattern only on text. -/
theorem Cell.satisfies_ofScalar_iff (x : Scalar) (op : Operator) (v : ConstraintValue)
    (htyped : ∀ y ∈ v.scalars, y.isId = x.isId) (hshape : v.isList = op.takesList)
    (hpattern : op.isPattern = true → x.isId = false) :
    (Cell.ofScalar x).satisfies op v = true ↔ x.Sat op v := by
  cases v with
  | single y =>
    obtain ⟨o, ho, hlt, heq, hgt⟩ := Cell.compare_ofScalar (htyped y (by simp [ConstraintValue.scalars]))
    cases op
    case like | notLike =>
      have hx := hpattern rfl
      have hy := htyped y (by simp [ConstraintValue.scalars])
      cases x with
      | id _ => simp [Scalar.isId] at hx
      | text s =>
        cases y with
        | id _ => simp [Scalar.isId] at hy
        | text p =>
          cases h : Like.accepts p s <;>
            simp +decide [Cell.satisfies, Cell.ofScalar, Scalar.Sat, h, ← Like.accepts_iff]
    case isIn | notIn => simp [ConstraintValue.isList, Operator.takesList] at hshape
    all_goals
      simp only [Cell.satisfies, ho]
      cases o <;> simp_all [Scalar.Sat]
  | list ys =>
    have hcmp : ∀ y ∈ ys, ∃ o, (Cell.ofScalar x).compare y = some o ∧ (o = .eq ↔ x = y) :=
      fun y hy => by
        obtain ⟨o, ho, -, heq, -⟩ :=
          Cell.compare_ofScalar (htyped y (by simpa [ConstraintValue.scalars] using hy))
        exact ⟨o, ho, heq⟩
    cases op
    case isIn =>
      simp only [Cell.satisfies, Scalar.Sat, List.any_eq_true, beq_iff_eq]
      constructor
      · rintro ⟨y, hy, hxy⟩
        obtain ⟨o, ho, heq⟩ := hcmp y hy
        rw [ho, Option.some.injEq] at hxy
        exact heq.1 hxy ▸ hy
      · intro hx
        obtain ⟨o, ho, heq⟩ := hcmp x hx
        exact ⟨x, hx, by rw [ho, heq.2 rfl]⟩
    case notIn =>
      simp only [Cell.satisfies, Scalar.Sat, List.all_eq_true]
      constructor
      · intro hall hx
        obtain ⟨o, ho, heq⟩ := hcmp x hx
        have h := hall x hx
        rw [ho, heq.2 rfl] at h
        simp at h
      · intro hx y hy
        obtain ⟨o, ho, heq⟩ := hcmp y hy
        rw [ho]
        have hne : o ≠ .eq := fun h => hx (heq.1 h ▸ hy)
        simpa using hne
    all_goals simp [ConstraintValue.isList, Operator.takesList] at hshape

/-! ### One constraint on one row -/

/-- The row has the part of the binding that a field reads. -/
def Row.Shows (t : Row) (x : Binding) : FieldKind → Prop
  | .bucketId | .bucketName => t.bucket = some x.bucket
  | .objectName | .kind | .contentType => t.object = some x.object
  | .metadata => t.entry = some x.entry

theorem Binding.isId_read (x : Binding) (f : FieldId) :
    (x.read f).isId = (f.toKind == .bucketId) := by
  cases f <;> rfl

/-- The scalars of an admissible constraint have the type of the value its field reads. -/
theorem Constraint.Admissible.typed_read {R : Registry} {c : Constraint} (hc : c.Admissible R)
    (x : Binding) : ∀ y ∈ c.value.scalars, y.isId = (x.read c.field).isId := by
  intro y hy
  rw [hc.value.typed y hy, Binding.isId_read]

/-- An admissible constraint matches a pattern only against a text. -/
theorem Constraint.Admissible.pattern_read {R : Registry} {c : Constraint} (hc : c.Admissible R)
    (x : Binding) : c.op.isPattern = true → (x.read c.field).isId = false := by
  intro hp
  have hne := hc.patterns (by cases hop : c.op <;> simp_all [Operator.isPattern])
  rw [Binding.isId_read]
  simpa using hne

/-- The leaf predicate of a constraint that passes the checks holds of a row exactly when the
constraint holds of the binding the row shows, whatever joins the predicate names. -/
theorem Constraint.leafPredicate_holds_iff (R : Registry) (c : Constraint) (g : JoinGraph)
    (t : Row) (x : Binding) (hc : c.Admissible R) (hshow : t.Shows x c.field.toKind) :
    (c.leafPredicate g).holds t = true ↔ c.Holds x := by
  have hsat := Cell.satisfies_ofScalar_iff (x.read c.field) c.op c.value (hc.typed_read x)
    hc.value.shape (hc.pattern_read x)
  obtain ⟨field, op, v⟩ := c
  cases field
  case metadata key =>
    -- the key and the value are compared on the same entry
    have hkey : (Cell.text x.entry.key).satisfies .eq (.single (.text key)) = true ↔
        x.entry.key = key := by
      simp [Cell.satisfies, Cell.compare]
    simp only [Row.Shows, FieldId.toKind] at hshow
    simp only [leafPredicate, Predicate.holds, Predicate.holdsAll, Row.cell, hshow, Option.map_some,
      Bool.and_true, Bool.and_eq_true, Constraint.Holds, FieldId.metadata.injEq, forall_eq']
    exact and_congr hkey hsat
  all_goals
    simp only [Row.Shows, FieldId.toKind] at hshow
    simp only [leafPredicate, FieldKind.attribute, FieldId.toKind, Predicate.holds, Row.cell,
      hshow, Option.map_some, Constraint.Holds, reduceCtorEq, false_implies, implies_true, true_and]
    exact hsat

/-! ### Compiled specifications -/

namespace Specification

mutual

/-- A specification compiled from an expression: the expression's shape, node for node, each
leaf with its constraint and the leaf predicate of the constraint over some graph. -/
def Realizes : Specification → Expression → Prop
  | .leaf c' p, .constraint c => c' = c ∧ ∃ g, p = c.leafPredicate g
  | .and ss, .and es => RealizesAll ss es
  | .or ss, .or es => RealizesAll ss es
  | _, _ => False

/-- Each specification is compiled from the expression at its position. -/
def RealizesAll : List Specification → List Expression → Prop
  | [], [] => True
  | s :: ss, e :: es => Realizes s e ∧ RealizesAll ss es
  | _, _ => False

end

theorem holds_and (ss : List Specification) (t : Row) :
    (Specification.and ss).predicate.holds t = Predicate.holdsAll (predicateAll ss) t := by
  cases ss <;> rfl

theorem holds_or (ss : List Specification) (t : Row) :
    (Specification.or ss).predicate.holds t = Predicate.holdsAny (predicateAll ss) t := by
  cases ss <;> rfl

section Meaning

variable (R : Registry) (t : Row) (x : Binding)

mutual

/-- The predicate of a compiled specification holds of a row exactly when the expression holds
of the binding the row shows, when the row shows every constraint's field and every constraint
passes the checks. -/
theorem holds_iff : ∀ (s : Specification) (e : Expression), s.Realizes e →
    (∀ c ∈ e.constraints, c.Admissible R ∧ t.Shows x c.field.toKind) →
    (s.predicate.holds t = true ↔ e.Holds x)
  | .leaf c' p, .constraint c, ⟨hc, g, hp⟩, hcs => by
    subst hc hp
    have hc := hcs c' (by simp [Expression.constraints])
    exact Constraint.leafPredicate_holds_iff R c' g t x hc.1 hc.2
  | .and ss, .and es, h, hcs => by
    rw [holds_and, Expression.Holds]
    exact holdsAll_iff ss es h hcs
  | .or ss, .or es, h, hcs => by
    rw [holds_or, Expression.Holds]
    exact holdsAny_iff ss es h hcs
  | .leaf .., .and _, h, _ | .leaf .., .or _, h, _ | .and _, .constraint _, h, _
  | .and _, .or _, h, _ | .or _, .constraint _, h, _ | .or _, .and _, h, _
  | .default, _, h, _ => by simp [Realizes] at h

theorem holdsAll_iff : ∀ (ss : List Specification) (es : List Expression), RealizesAll ss es →
    (∀ c ∈ Expression.constraintsAll es, c.Admissible R ∧ t.Shows x c.field.toKind) →
    (Predicate.holdsAll (predicateAll ss) t = true ↔ Expression.HoldsAll es x)
  | [], [], _, _ => by simp [predicateAll, Predicate.holdsAll, Expression.HoldsAll]
  | s :: ss, e :: es, ⟨h, hs⟩, hcs => by
    have hhead := holds_iff s e h fun c hc =>
      hcs c (by simp [Expression.constraintsAll, hc])
    have htail := holdsAll_iff ss es hs fun c hc =>
      hcs c (by simp [Expression.constraintsAll, hc])
    simp only [predicateAll, Predicate.holdsAll, Bool.and_eq_true, Expression.HoldsAll]
    exact and_congr hhead htail
  | [], _ :: _, h, _ | _ :: _, [], h, _ => by simp [RealizesAll] at h

theorem holdsAny_iff : ∀ (ss : List Specification) (es : List Expression), RealizesAll ss es →
    (∀ c ∈ Expression.constraintsAll es, c.Admissible R ∧ t.Shows x c.field.toKind) →
    (Predicate.holdsAny (predicateAll ss) t = true ↔ Expression.HoldsAny es x)
  | [], [], _, _ => by simp [predicateAll, Predicate.holdsAny, Expression.HoldsAny]
  | s :: ss, e :: es, ⟨h, hs⟩, hcs => by
    have hhead := holds_iff s e h fun c hc =>
      hcs c (by simp [Expression.constraintsAll, hc])
    have htail := holdsAny_iff ss es hs fun c hc =>
      hcs c (by simp [Expression.constraintsAll, hc])
    simp only [predicateAll, Predicate.holdsAny, Bool.or_eq_true, Expression.HoldsAny]
    exact or_congr hhead htail
  | [], _ :: _, h, _ | _ :: _, [], h, _ => by simp [RealizesAll] at h

end

end Meaning

end Specification

/-! ### What compiling produces -/

/-- The relations the constraints of a list join, in order. -/
def Constraint.relationsAll (cs : List Constraint) : List Relation := cs.flatMap Constraint.relations

namespace Registry

variable (r : Registry) (limit : Nat)

/-- A constraint node that compiles passed the checks, becomes the leaf of its leaf predicate
over the graph with its relations joined, and leaves that graph. -/
theorem compileRec_constraint_ok (hR : r.LeafOnly) {d : Nat} {c : Constraint} {b b' : Build}
    {s : Specification} (h : (r.compileRec limit d (.constraint c)).run.run b = (.ok s, b')) :
    c.violation r = none ∧ s = .leaf c (c.leafPredicate (b.graph.joinAll c.relations)) ∧
      b'.graph = b.graph.joinAll c.relations := by
  by_cases hd : d > limit
  · rw [r.compileRec_run_of_gt limit hd] at h
    cases h
  · simp only [compileRec, hd, if_false] at h
    cases hv : c.violation r with
    | some err =>
      obtain ⟨j, hj⟩ := Constraint.dispatch_run_of_error hR hv b
      rw [hj] at h
      cases h
    | none =>
      obtain ⟨j, hj⟩ := Constraint.dispatch_run_of_ok hR hv b
      rw [hj] at h
      cases h
      exact ⟨rfl, rfl, rfl⟩

mutual

/-- A successful compilation yields a specification compiled from the expression, joins the
relations of its constraints in pre-order, and every constraint passed the checks. -/
theorem compileRec_realizes (hR : r.LeafOnly) (d : Nat) :
    ∀ (e : Expression) (b b' : Build) (s : Specification),
      (r.compileRec limit d e).run.run b = (.ok s, b') →
      s.Realizes e ∧ b'.graph = b.graph.joinAll (Constraint.relationsAll e.constraints) ∧
        ∀ c ∈ e.constraints, c.violation r = none
  | .constraint c, b, b', s, h => by
    obtain ⟨hv, rfl, hg⟩ := r.compileRec_constraint_ok limit hR h
    refine ⟨⟨rfl, _, rfl⟩, ?_, ?_⟩
    · simp [hg, Expression.constraints, Constraint.relationsAll]
    · simpa [Expression.constraints] using hv
  | .and cs, b, b', s, h => by
    obtain ⟨-, b₁, ss, hg, hx, rfl⟩ := r.compileRec_group_ok limit .and rfl h
    rw [← hg]
    exact compileRecAll_realizes hR (d + 1) cs _ _ ss hx
  | .or cs, b, b', s, h => by
    obtain ⟨-, b₁, ss, hg, hx, rfl⟩ := r.compileRec_group_ok limit .or rfl h
    rw [← hg]
    exact compileRecAll_realizes hR (d + 1) cs _ _ ss hx

theorem compileRecAll_realizes (hR : r.LeafOnly) (d : Nat) :
    ∀ (es : List Expression) (b b' : Build) (ss : List Specification),
      (r.compileRecAll limit d es).run.run b = (.ok ss, b') →
      Specification.RealizesAll ss es ∧
        b'.graph = b.graph.joinAll (Constraint.relationsAll (Expression.constraintsAll es)) ∧
        ∀ c ∈ Expression.constraintsAll es, c.violation r = none
  | [], b, b', ss, h => by
    cases h
    exact ⟨trivial, rfl, by simp [Expression.constraintsAll]⟩
  | e :: es, b, b', ss, h => by
    obtain ⟨s, ss', b₁, hx, hy, rfl⟩ := r.compileRecAll_cons_ok limit h
    obtain ⟨hs, hg, hv⟩ := compileRec_realizes hR d e b b₁ s hx
    obtain ⟨hss, hg', hv'⟩ := compileRecAll_realizes hR d es b₁ _ ss' hy
    refine ⟨⟨hs, hss⟩, ?_, ?_⟩
    · rw [hg', hg, Expression.constraintsAll]
      simp only [Constraint.relationsAll, List.flatMap_append, JoinGraph.joinAll_append]
    · intro c hc
      simp only [Expression.constraintsAll, List.mem_append] at hc
      exact hc.elim (hv c) (hv' c)

end

end Registry

/-- A compiled filter is compiled from its expression, joins the relations of the expression's
constraints into the empty graph, and every constraint passed the checks. -/
theorem compile_realizes {config : CompilerConfig} {R : Registry} (hR : R.LeafOnly) {e : Expression}
    {journal : Journal} {f : CompiledFilter} (h : (compile config R (some e) journal).1 = .ok f) :
    f.spec.Realizes e ∧
      f.graph = JoinGraph.empty.joinAll (Constraint.relationsAll e.constraints) ∧
      ∀ c ∈ e.constraints, c.Admissible R := by
  rw [compile_some_eq] at h
  rcases hx : (R.compileRec config.maxDepth 1 e).run.run ⟨JoinGraph.empty, journal⟩ with
    ⟨err | s, b⟩
  · rw [hx] at h
    cases h
  · rw [hx] at h
    cases h
    obtain ⟨hs, hg, hv⟩ := R.compileRec_realizes config.maxDepth hR 1 e _ b s hx
    exact ⟨hs, hg, fun c hc => (Constraint.violation_eq_none_iff R c).1 (hv c hc)⟩

end CatalogQuery
