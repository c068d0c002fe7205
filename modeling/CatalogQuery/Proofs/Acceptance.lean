import CatalogQuery.Proofs.Refinement
import CatalogQuery.Filter.Sample

/-!
# Which expressions compile, and the error of the others

An expression compiles exactly when every node, groups and constraints alike, lies within the
depth limit (the root at depth 1) and every constraint passes the registry's checks
(`Constraint.Admissible`): its field has a handler, the operator applies to the field, the value
fits, and a metadata key is not empty.

Otherwise the error is that of the first node in pre-order that fails a check, the checks of one
node taken in that order and the scalars of a value left to right (`Expression.firstViolation`).

Both follow from `Registry.compileRec_errorOf`, by recursion on the tree, through the equality of
the work-stack compiler with the recursive one.
-/

namespace CatalogQuery

/-- The error of a failed outcome. -/
def errorOf {α : Type} : Except FilterError α → Option FilterError
  | .ok _ => none
  | .error e => some e

theorem errorOf_eq_some {α : Type} {x : Except FilterError α} {e : FilterError} :
    errorOf x = some e ↔ x = .error e := by
  cases x <;> simp [errorOf]

theorem errorOf_eq_none {α : Type} {x : Except FilterError α} :
    errorOf x = none ↔ ∃ a, x = .ok a := by
  cases x <;> simp [errorOf]

/-! ### The checks of one constraint -/

/-- A constraint passes the registry's checks: its field has a handler; `like` and `notLike` are
used on text fields only and `in` and `notIn` on the bucket id only; its value fits; and a
metadata key is not empty. -/
structure Constraint.Admissible (R : Registry) (c : Constraint) : Prop where
  handled : (R.handlerFor? c.field.toKind).isSome
  patterns : c.op = .like ∨ c.op = .notLike → c.field.toKind ≠ .bucketId
  membership : c.op = .isIn ∨ c.op = .notIn → c.field.toKind = .bucketId
  value : c.ValueFits
  key : c.field ≠ .metadata ""

theorem ValueType.supports_iff (k : FieldKind) (op : Operator) :
    k.valueType.supports op = true ↔
      (op = .like ∨ op = .notLike → k ≠ .bucketId) ∧ (op = .isIn ∨ op = .notIn → k = .bucketId) := by
  cases k <;> cases op <;> simp [FieldKind.valueType, ValueType.supports, Operator.takesList,
    Operator.isPattern]

theorem Constraint.leafError?_eq_none_iff (c : Constraint) :
    c.leafError? = none ↔ c.field.toKind.valueType.supports c.op = true ∧ c.ValueFits ∧
      c.field ≠ .metadata "" := by
  rw [← Constraint.valueError?_eq_none_iff]
  unfold Constraint.leafError?
  cases hs : c.field.toKind.valueType.supports c.op
  · simp
  · cases hv : c.valueError? <;> simp

theorem Constraint.violation_eq_none_iff (R : Registry) (c : Constraint) :
    c.violation R = none ↔ c.Admissible R := by
  unfold Constraint.violation
  cases hr : R.handlerFor? c.field.toKind with
  | none =>
    simp only [reduceCtorEq, false_iff]
    exact fun h => by simpa [hr] using h.handled
  | some _ =>
    simp only [Constraint.leafError?_eq_none_iff, ValueType.supports_iff]
    constructor
    · rintro ⟨⟨hp, hm⟩, hv, hk⟩
      exact ⟨by simp [hr], hp, hm, hv, hk⟩
    · intro h
      exact ⟨⟨h.patterns, h.membership⟩, h.value, h.key⟩

/-! ### Nodes in pre-order -/

namespace Expression

mutual

/-- The nodes of an expression in pre-order, each with its depth, the root at `depth`. -/
def nodes (depth : Nat) : Expression → List (Expression × Nat)
  | .constraint c => [(.constraint c, depth)]
  | .and cs => (.and cs, depth) :: nodesAll (depth + 1) cs
  | .or cs => (.or cs, depth) :: nodesAll (depth + 1) cs

/-- The nodes of sibling expressions in pre-order, all siblings at `depth`. -/
def nodesAll (depth : Nat) : List Expression → List (Expression × Nat)
  | [] => []
  | e :: es => e.nodes depth ++ nodesAll depth es

end

/-- The error for the first check a node fails: its depth, then a constraint's checks. -/
def nodeViolation (R : Registry) (limit : Nat) : Expression × Nat → Option FilterError
  | (e, d) =>
    if d > limit then some (.depthLimitExceeded d limit)
    else
      match e with
      | .constraint c => c.violation R
      | _ => none

/-- The error of the first node in pre-order that fails a check, if any. -/
def firstViolation (R : Registry) (limit : Nat) (e : Expression) : Option FilterError :=
  (e.nodes 1).findSome? (nodeViolation R limit)

/-- Every node lies within the limit and every constraint passes the registry's checks. -/
def Accepted (R : Registry) (limit : Nat) (e : Expression) : Prop :=
  ∀ n ∈ e.nodes 1, n.2 ≤ limit ∧ ∀ c, n.1 = .constraint c → c.Admissible R

theorem nodeViolation_eq_none_iff (R : Registry) (limit : Nat) (n : Expression × Nat) :
    nodeViolation R limit n = none ↔ n.2 ≤ limit ∧ ∀ c, n.1 = .constraint c → c.Admissible R := by
  obtain ⟨e, d⟩ := n
  unfold nodeViolation
  by_cases hd : d > limit
  · simp only [hd, if_true, reduceCtorEq, false_iff, not_and]
    exact fun h => absurd h (Nat.not_le.2 hd)
  · simp only [hd, if_false, Nat.not_lt.1 hd, true_and]
    cases e with
    | constraint c => simp [Constraint.violation_eq_none_iff]
    | and cs => simp
    | or cs => simp

theorem firstViolation_eq_none_iff (R : Registry) (limit : Nat) (e : Expression) :
    e.firstViolation R limit = none ↔ e.Accepted R limit := by
  unfold firstViolation Accepted
  rw [List.findSome?_eq_none_iff]
  exact forall₂_congr fun n _ => nodeViolation_eq_none_iff R limit n

end Expression

/-! ### The recursive compiler fails at the first violation -/

namespace Registry

variable (r : Registry) (limit : Nat)

/-- A group node fails deeper than the limit, and within it exactly as its children do. -/
theorem compileRec_group_errorOf (kind : GroupKind) (e : Expression) {cs : List Expression}
    (he : e = kind.node cs) (d : Nat) (b : Build) :
    ∃ b₁ : Build, errorOf ((r.compileRec limit d e).run.run b).1 =
      if d > limit then some (.depthLimitExceeded d limit)
      else errorOf ((r.compileRecAll limit (d + 1) cs).run.run b₁).1 := by
  by_cases hd : d > limit
  · refine ⟨b, ?_⟩
    rw [r.compileRec_run_of_gt limit hd, if_pos hd]
    rfl
  · obtain ⟨b₁, hrun, -⟩ := r.compileRec_group_run limit kind he hd b
    refine ⟨b₁, ?_⟩
    rw [hrun, if_neg hd]
    rcases hx : (r.compileRecAll limit (d + 1) cs).run.run b₁ with ⟨err | ss, b'⟩
    · rw [BuildM.run_bind_error hx]
      rfl
    · rw [BuildM.run_bind_ok hx]
      rfl

mutual

theorem compileRec_errorOf (hR : r.LeafOnly) (d : Nat) :
    ∀ (e : Expression) (b : Build),
      errorOf ((r.compileRec limit d e).run.run b).1 =
        (e.nodes d).findSome? (Expression.nodeViolation r limit)
  | .constraint c, b => by
    simp only [Expression.nodes, List.findSome?_cons, List.findSome?_nil,
      Expression.nodeViolation]
    by_cases hd : d > limit
    · simp only [compileRec, hd, if_true]
      rfl
    · simp only [compileRec, hd, if_false]
      cases hv : c.violation r with
      | some err =>
        obtain ⟨j, hj⟩ := Constraint.dispatch_run_of_error hR hv b
        rw [hj]
        rfl
      | none =>
        obtain ⟨j, hj⟩ := Constraint.dispatch_run_of_ok hR hv b
        rw [hj]
        rfl
  | .and cs, b => by
    obtain ⟨b₁, h⟩ := r.compileRec_group_errorOf limit .and (.and cs) rfl d b
    rw [h, compileRecAll_errorOf hR (d + 1) cs b₁]
    by_cases hd : d > limit <;> simp [Expression.nodes, Expression.nodeViolation, hd]
  | .or cs, b => by
    obtain ⟨b₁, h⟩ := r.compileRec_group_errorOf limit .or (.or cs) rfl d b
    rw [h, compileRecAll_errorOf hR (d + 1) cs b₁]
    by_cases hd : d > limit <;> simp [Expression.nodes, Expression.nodeViolation, hd]

theorem compileRecAll_errorOf (hR : r.LeafOnly) (d : Nat) :
    ∀ (es : List Expression) (b : Build),
      errorOf ((r.compileRecAll limit d es).run.run b).1 =
        (Expression.nodesAll d es).findSome? (Expression.nodeViolation r limit)
  | [], b => rfl
  | e :: es, b => by
    simp only [compileRecAll, Expression.nodesAll, List.findSome?_append]
    rw [← compileRec_errorOf hR d e b]
    rcases hx : (r.compileRec limit d e).run.run b with ⟨err | s, b₁⟩
    · rw [BuildM.run_bind_error hx]
      rfl
    · rw [BuildM.run_bind_ok hx, ← compileRecAll_errorOf hR d es b₁]
      rcases hy : (r.compileRecAll limit d es).run.run b₁ with ⟨err | ss, b₂⟩
      · rw [BuildM.run_bind_error hy]
        rfl
      · rw [BuildM.run_bind_ok hy]
        rfl

end

end Registry

/-- Compiling an expression runs the recursive compiler from the empty graph and pairs its
specification with the graph it built. -/
theorem compile_some_eq (config : CompilerConfig) (R : Registry) (e : Expression)
    (journal : Journal) :
    (compile config R (some e) journal).1 =
      match (R.compileRec config.maxDepth 1 e).run.run ⟨JoinGraph.empty, journal⟩ with
      | (.ok spec, b) => .ok ⟨spec, b.graph⟩
      | (.error err, _) => .error err := by
  unfold compile BuildM.runFrom
  dsimp only
  rw [Registry.compileInto_eq]
  rcases (R.compileRec config.maxDepth 1 e).run.run ⟨JoinGraph.empty, journal⟩ with
    ⟨err | s, b⟩ <;> rfl

/-- The outcome of compiling an expression is that of compiling it into the empty graph. -/
theorem compile_some_errorOf (config : CompilerConfig) (R : Registry) (e : Expression)
    (journal : Journal) :
    errorOf (compile config R (some e) journal).1 =
      errorOf ((R.compileInto config.maxDepth e).run.run ⟨JoinGraph.empty, journal⟩).1 := by
  unfold compile BuildM.runFrom
  dsimp only
  rcases (R.compileInto config.maxDepth e).run.run ⟨JoinGraph.empty, journal⟩ with ⟨err | s, b⟩ <;> rfl

/-- The error of compiling an expression is that of its first node in pre-order that fails a
check. -/
theorem compile_errorOf (config : CompilerConfig) {R : Registry} (hR : R.LeafOnly) (e : Expression)
    (journal : Journal) :
    errorOf (compile config R (some e) journal).1 = e.firstViolation R config.maxDepth := by
  rw [compile_some_errorOf, Registry.compileInto_eq, Registry.compileRec_errorOf R _ hR]
  rfl

/-! ### Acceptance -/

/-- Under a registry of built-in handlers, an expression compiles exactly when every node lies
within the depth limit and every constraint passes the registry's checks; otherwise compiling
fails with the error of the first node in pre-order that fails a check, taking a node's checks in
order: depth, handler, operator, value shape, non-empty list, the first scalar of the wrong type,
metadata key. -/
theorem compile_accepts_iff (config : CompilerConfig) (R : Registry) (hR : R.LeafOnly)
    (e : Expression) (journal : Journal) :
    ((∃ f, (compile config R (some e) journal).1 = .ok f) ↔ e.Accepted R config.maxDepth) ∧
    ∀ err, (compile config R (some e) journal).1 = .error err ↔
      e.firstViolation R config.maxDepth = some err := by
  have h := compile_errorOf config hR e journal
  refine ⟨?_, fun err => ?_⟩
  · rw [← errorOf_eq_none, h, Expression.firstViolation_eq_none_iff]
  · rw [← errorOf_eq_some, h]

theorem compile_accepts_iff_standard :
    Registry.standard.LeafOnly ∧
    (((∃ f, (compile .default .standard (some Sample.nestedExpression) #[]).1 = .ok f) ↔
        Sample.nestedExpression.Accepted .standard CompilerConfig.default.maxDepth) ∧
      ∀ err, (compile .default .standard (some Sample.nestedExpression) #[]).1 = .error err ↔
        Sample.nestedExpression.firstViolation .standard CompilerConfig.default.maxDepth =
          some err) :=
  ⟨Registry.leafOnly_standard,
    compile_accepts_iff .default .standard Registry.leafOnly_standard Sample.nestedExpression #[]⟩

/-- A handler that refuses every constraint of its field. -/
def Handler.rejectAll (k : FieldKind) : Handler where
  field := k
  describe := "RejectAll(" ++ k.label ++ ")"
  compile c := throw (c.invalid "rejected")

/-- A handler of its own decides what compiles: with a handler refusing every constraint on the
kind, `kind = workflow` passes every check and still does not compile. -/
theorem compile_refuses_accepted_under_rejecting_handler :
    (Expression.constraint ⟨.kind, .eq, .single (.text "workflow")⟩).Accepted
        ⟨[Handler.rejectAll .kind, Handler.leaf .kind]⟩ CompilerConfig.default.maxDepth ∧
      (compile .default ⟨[Handler.rejectAll .kind, Handler.leaf .kind]⟩
          (some (.constraint ⟨.kind, .eq, .single (.text "workflow")⟩)) #[]).1 =
        .error (.invalidConstraint "kind" "rejected") := by
  refine ⟨(Expression.firstViolation_eq_none_iff _ _ _).1 rfl, ?_⟩
  rw [compile_some_eq]
  rfl

-- An empty group counts as a node: one nested below the limit is rejected.
example (R : Registry) :
    Expression.firstViolation R 1 (.and [.or []]) = some (.depthLimitExceeded 2 1) := rfl

end CatalogQuery
