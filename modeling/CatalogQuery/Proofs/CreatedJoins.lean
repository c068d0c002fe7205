import CatalogQuery.Proofs.Evaluation

/-!
# The joins a compilation creates

Compiling an expression into a join graph does nothing to the graph but join relations: a
constraint that passes its checks asks for the relations of its field (`Constraint.relations`),
and the constraints are met in pre-order. So a graph that keeps the join graph invariant keeps it
whatever the outcome (`Registry.compileInto_graph`).

A compilation that fails leaves exactly the joins of the constraints met before the first node
that fails a check (`Expression.passedConstraints`): the failing constraint is refused before it
asks for a join, and nothing after it runs.

From the empty graph, the graph of a compiled expression lists the relations its constraints
need (`Constraint.joinsNeeded`) in pre-order, each at its first need (`relations_compiled`).
-/

namespace CatalogQuery

/-! ### Lists of nodes -/

theorem takeWhile_append_of_exists_false {α : Type} {p : α → Bool} {xs : List α} (ys : List α)
    (h : ∃ x ∈ xs, p x = false) : (xs ++ ys).takeWhile p = xs.takeWhile p := by
  induction xs with
  | nil => simp at h
  | cons x xs ih =>
    by_cases hx : p x = true
    · have h' : ∃ y ∈ xs, p y = false := by
        obtain ⟨y, hy, hpy⟩ := h
        rcases List.mem_cons.1 hy with rfl | hy
        · simp [hx] at hpy
        · exact ⟨y, hy, hpy⟩
      simp [hx, ih h']
    · simp [hx]

namespace Expression

/-- The constraint of a constraint node. -/
def asConstraint? : Expression → Option Constraint
  | .constraint c => some c
  | _ => none

mutual

theorem filterMap_nodes (d : Nat) :
    ∀ e : Expression, (e.nodes d).filterMap (·.1.asConstraint?) = e.constraints
  | .constraint _ => rfl
  | .and cs => filterMap_nodesAll (d + 1) cs
  | .or cs => filterMap_nodesAll (d + 1) cs

theorem filterMap_nodesAll (d : Nat) :
    ∀ es : List Expression, (nodesAll d es).filterMap (·.1.asConstraint?) = constraintsAll es
  | [] => rfl
  | e :: es => by
    simp only [nodesAll, List.filterMap_append, filterMap_nodes d e, filterMap_nodesAll d es,
      constraintsAll]

end

section Failure

variable (R : Registry) (limit : Nat)

/-- The constraints of the nodes before the first node that fails a check, in pre-order. -/
def passedConstraints (ns : List (Expression × Nat)) : List Constraint :=
  (ns.takeWhile fun n => (nodeViolation R limit n).isNone).filterMap (·.1.asConstraint?)

theorem passedConstraints_cons_of_fails {n : Expression × Nat} (ns : List (Expression × Nat))
    (h : nodeViolation R limit n ≠ none) : passedConstraints R limit (n :: ns) = [] := by
  cases hv : nodeViolation R limit n with
  | none => exact absurd hv h
  | some err => simp [passedConstraints, hv]

/-- A group node within the limit passes its own checks and is no constraint. -/
theorem passedConstraints_cons_group (kind : GroupKind) (e : Expression) {cs : List Expression}
    (he : e = kind.node cs) {d : Nat} (hd : ¬ d > limit) (ns : List (Expression × Nat)) :
    passedConstraints R limit ((e, d) :: ns) = passedConstraints R limit ns := by
  subst he
  cases kind <;>
    simp [passedConstraints, nodeViolation, hd, GroupKind.node, asConstraint?]

theorem passedConstraints_append_of_fails {ns : List (Expression × Nat)}
    (rest : List (Expression × Nat)) (h : ∃ n ∈ ns, nodeViolation R limit n ≠ none) :
    passedConstraints R limit (ns ++ rest) = passedConstraints R limit ns := by
  obtain ⟨n, hn, hv⟩ := h
  unfold passedConstraints
  have hn' : (nodeViolation R limit n).isNone = false := by
    cases hv' : nodeViolation R limit n with
    | none => exact absurd hv' hv
    | some _ => rfl
  rw [takeWhile_append_of_exists_false rest ⟨n, hn, hn'⟩]

theorem passedConstraints_append_of_passes {ns : List (Expression × Nat)}
    (rest : List (Expression × Nat)) (h : ∀ n ∈ ns, nodeViolation R limit n = none) :
    passedConstraints R limit (ns ++ rest) =
      ns.filterMap (·.1.asConstraint?) ++ passedConstraints R limit rest := by
  unfold passedConstraints
  rw [List.takeWhile_append_of_pos (fun n hn => by simp [h n hn]), List.filterMap_append]

end Failure

end Expression

/-! ### The graph after a compilation -/

namespace Registry

variable (r : Registry) (limit : Nat)

/-- A group node fails beyond the limit before anything else, and within it as its children
fail, from a state with the same graph. -/
theorem compileRec_group_error (kind : GroupKind) {e : Expression} {cs : List Expression}
    (he : e = kind.node cs) {d : Nat} {b b' : Build} {err : FilterError}
    (h : (r.compileRec limit d e).run.run b = (.error err, b')) :
    (d > limit ∧ b' = b) ∨
      (¬ d > limit ∧ ∃ b₁ : Build, b₁.graph = b.graph ∧
        (r.compileRecAll limit (d + 1) cs).run.run b₁ = (.error err, b')) := by
  by_cases hd : d > limit
  · rw [r.compileRec_run_of_gt limit hd] at h
    cases h
    exact .inl ⟨hd, rfl⟩
  · obtain ⟨b₁, hrun, hg⟩ := r.compileRec_group_run limit kind he hd b
    rw [hrun] at h
    rcases hx : (r.compileRecAll limit (d + 1) cs).run.run b₁ with ⟨err' | ss, b''⟩
    · rw [BuildM.run_bind_error hx] at h
      cases h
      exact .inr ⟨hd, b₁, hg, hx⟩
    · rw [BuildM.run_bind_ok hx] at h
      cases h

/-- The nodes of a compiled expression all pass their checks; those of a failed one do not. -/
theorem nodes_of_compileRec (hR : r.LeafOnly) (d : Nat) (e : Expression) (b : Build) :
    (∀ s b', (r.compileRec limit d e).run.run b = (.ok s, b') →
      ∀ n ∈ e.nodes d, Expression.nodeViolation r limit n = none) ∧
    (∀ err b', (r.compileRec limit d e).run.run b = (.error err, b') →
      ∃ n ∈ e.nodes d, Expression.nodeViolation r limit n ≠ none) := by
  have h := r.compileRec_errorOf limit hR d e b
  constructor
  · intro s b' hx
    rw [hx] at h
    exact List.findSome?_eq_none_iff.1 h.symm
  · intro err b' hx
    rw [hx] at h
    obtain ⟨n, hn, hv⟩ := List.exists_of_findSome?_eq_some h.symm
    exact ⟨n, hn, by simp [hv]⟩

mutual

/-- A failed compilation of a node leaves the graph with the joins of the constraints before the
first node that fails a check, joined in pre-order. -/
theorem compileRec_graph_of_error (hR : r.LeafOnly) (d : Nat) :
    ∀ (e : Expression) (b b' : Build) (err : FilterError),
      (r.compileRec limit d e).run.run b = (.error err, b') →
      b'.graph = b.graph.joinAll
        (Constraint.relationsAll (Expression.passedConstraints r limit (e.nodes d)))
  | .constraint c, b, b', err, h => by
    have hfail : ∃ n ∈ (Expression.constraint c).nodes d,
        Expression.nodeViolation r limit n ≠ none :=
      (r.nodes_of_compileRec limit hR d _ b).2 err b' h
    simp only [Expression.nodes, List.mem_singleton, exists_eq_left] at hfail
    rw [Expression.nodes, Expression.passedConstraints_cons_of_fails r limit [] hfail]
    by_cases hd : d > limit
    · rw [r.compileRec_run_of_gt limit hd] at h
      cases h
      rfl
    · simp only [compileRec, hd, if_false] at h
      cases hv : c.violation r with
      | some err' =>
        obtain ⟨j, hj⟩ := Constraint.dispatch_run_of_error hR hv b
        rw [hj] at h
        cases h
        rfl
      | none =>
        obtain ⟨j, hj⟩ := Constraint.dispatch_run_of_ok hR hv b
        rw [hj] at h
        cases h
  | .and cs, b, b', err, h => by
    rcases r.compileRec_group_error limit .and rfl h with ⟨hd, rfl⟩ | ⟨hd, b₁, hg, hx⟩
    · rw [Expression.nodes, Expression.passedConstraints_cons_of_fails r limit (n := (.and cs, d)) _
        (by simp [Expression.nodeViolation, hd])]
      rfl
    · rw [Expression.nodes, Expression.passedConstraints_cons_group r limit .and (.and cs) rfl hd,
        compileRecAll_graph_of_error hR (d + 1) cs b₁ b' err hx, hg]
  | .or cs, b, b', err, h => by
    rcases r.compileRec_group_error limit .or rfl h with ⟨hd, rfl⟩ | ⟨hd, b₁, hg, hx⟩
    · rw [Expression.nodes, Expression.passedConstraints_cons_of_fails r limit (n := (.or cs, d)) _
        (by simp [Expression.nodeViolation, hd])]
      rfl
    · rw [Expression.nodes, Expression.passedConstraints_cons_group r limit .or (.or cs) rfl hd,
        compileRecAll_graph_of_error hR (d + 1) cs b₁ b' err hx, hg]

/-- A failed compilation of siblings leaves the graph with the joins of the constraints before
the first failing node, joined in pre-order. -/
theorem compileRecAll_graph_of_error (hR : r.LeafOnly) (d : Nat) :
    ∀ (es : List Expression) (b b' : Build) (err : FilterError),
      (r.compileRecAll limit d es).run.run b = (.error err, b') →
      b'.graph = b.graph.joinAll
        (Constraint.relationsAll (Expression.passedConstraints r limit (Expression.nodesAll d es)))
  | [], b, b', err, h => by cases h
  | e :: es, b, b', err, h => by
    simp only [compileRecAll] at h
    rcases hx : (r.compileRec limit d e).run.run b with ⟨err' | s, b₁⟩
    · rw [BuildM.run_bind_error hx] at h
      cases h
      rw [Expression.nodesAll, Expression.passedConstraints_append_of_fails r limit _
        ((r.nodes_of_compileRec limit hR d e b).2 _ _ hx)]
      exact compileRec_graph_of_error hR d e b _ _ hx
    · rw [BuildM.run_bind_ok hx] at h
      rcases hy : (r.compileRecAll limit d es).run.run b₁ with ⟨err' | ss, b₂⟩
      · rw [BuildM.run_bind_error hy] at h
        cases h
        obtain ⟨-, hg, -⟩ := r.compileRec_realizes limit hR d e b b₁ s hx
        rw [Expression.nodesAll, Expression.passedConstraints_append_of_passes r limit _
          ((r.nodes_of_compileRec limit hR d e b).1 _ _ hx), Expression.filterMap_nodes,
          compileRecAll_graph_of_error hR d es b₁ _ _ hy, hg]
        simp only [Constraint.relationsAll, List.flatMap_append, JoinGraph.joinAll_append]
      · rw [BuildM.run_bind_ok hy] at h
        cases h

end

theorem compileInto_graph_of_error (hR : r.LeafOnly) {e : Expression} {g : JoinGraph}
    {journal : Journal} {err : FilterError} {b : Build}
    (h : (r.compileInto limit e).runFrom g journal = (.error err, b)) :
    b.graph = g.joinAll
      (Constraint.relationsAll (Expression.passedConstraints r limit (e.nodes 1))) := by
  rw [BuildM.runFrom, compileInto_eq] at h
  exact r.compileRec_graph_of_error limit hR 1 e _ b err h

/-- Whatever its outcome, a compilation only joins relations to the graph it is given. -/
theorem compileInto_graph (hR : r.LeafOnly) (e : Expression) (g : JoinGraph) (journal : Journal) :
    ∃ rs, ((r.compileInto limit e).runFrom g journal).2.graph = g.joinAll rs := by
  rcases hx : (r.compileInto limit e).runFrom g journal with ⟨err | s, b⟩
  · exact ⟨_, r.compileInto_graph_of_error limit hR hx⟩
  · rw [BuildM.runFrom, compileInto_eq] at hx
    exact ⟨_, (r.compileRec_realizes limit hR 1 e _ b s hx).2.1⟩

theorem errorOf_compileInto (hR : r.LeafOnly) (e : Expression) (g : JoinGraph)
    (journal : Journal) :
    errorOf ((r.compileInto limit e).runFrom g journal).1 = e.firstViolation r limit := by
  rw [BuildM.runFrom, compileInto_eq, compileRec_errorOf r limit hR]
  rfl

end Registry

/-- Under a registry of built-in handlers, a compilation that fails leaves the graph it was given
with exactly the joins of the constraints before the first node that fails a check, joined in pre-order as those constraints
ask for them: the failing constraint joins nothing and no later node runs. Its error is the
failing node's, and compiling the expression on its own gives that error and no filter. -/
theorem compileInto_failure_keeps_earlier_joins (R : Registry) (hR : R.LeafOnly) (limit : Nat)
    (e : Expression) (g : JoinGraph) (journal : Journal) (err : FilterError) (b : Build)
    (h : (R.compileInto limit e).runFrom g journal = (.error err, b)) :
    b.graph = g.joinAll
        (Constraint.relationsAll (Expression.passedConstraints R limit (e.nodes 1))) ∧
      e.firstViolation R limit = some err ∧
      ∀ journal' : Journal, (compile ⟨limit⟩ R (some e) journal').1 = .error err := by
  have hfirst : e.firstViolation R limit = some err := by
    rw [← R.errorOf_compileInto limit hR e g journal, h]
    rfl
  refine ⟨R.compileInto_graph_of_error limit hR h, hfirst, fun journal' => ?_⟩
  rw [← errorOf_eq_some, compile_some_errorOf, ← BuildM.runFrom, R.errorOf_compileInto limit hR]
  exact hfirst

namespace Sample

/-- A constraint on the object's name, then a pattern on the bucket id, which it does not take. -/
def nameThenBucketPattern : Expression :=
  .and [.constraint ⟨.objectName, .eq, .single (.text "a")⟩,
    .constraint ⟨.bucketId, .like, .single (.text "1%")⟩]

end Sample

/-- Compiling `name = a AND bucketId like 1%` from the empty graph fails at the pattern, keeping
the object's join that the name asked for. -/
theorem compileInto_failure_keeps_object_join :
    ∃ b, (Registry.standard.compileInto 60 Sample.nameThenBucketPattern).runFrom JoinGraph.empty #[] =
        (.error (.unsupportedOperator .bucketId .like), b) ∧
      b.graph = JoinGraph.empty.joinAll (Constraint.relationsAll
        (Expression.passedConstraints Registry.standard 60 (Sample.nameThenBucketPattern.nodes 1))) ∧
      Sample.nameThenBucketPattern.firstViolation Registry.standard 60 =
        some (.unsupportedOperator .bucketId .like) ∧
      ∀ journal' : Journal, (compile ⟨60⟩ Registry.standard (some Sample.nameThenBucketPattern)
        journal').1 = .error (.unsupportedOperator .bucketId .like) := by
  obtain ⟨b, hb⟩ : ∃ b, (Registry.standard.compileInto 60 Sample.nameThenBucketPattern).runFrom
      JoinGraph.empty #[] = (.error (.unsupportedOperator .bucketId .like), b) :=
    ⟨_, by rw [BuildM.runFrom, Registry.compileInto_eq]; rfl⟩
  exact ⟨b, hb, compileInto_failure_keeps_earlier_joins _ Registry.leafOnly_standard _ _ _ _ _ _
    hb⟩

/-! ### The joins of a compiled expression -/

/-- The joins a constraint needs, in the order they are made: the object's for every field, then
the bucket's for a bucket field or the metadata entries' for a metadata field. -/
def Constraint.joinsNeeded (c : Constraint) : List Relation :=
  match c.field with
  | .objectName | .kind | .contentType => [.catalogObject]
  | .bucketId | .bucketName => [.catalogObject, .bucket]
  | .metadata _ => [.catalogObject, .metadataEntries]

theorem Constraint.flatMap_path_relations (c : Constraint) :
    c.relations.flatMap Relation.path = c.joinsNeeded := by
  obtain ⟨field, op, v⟩ := c
  cases field <;> rfl

theorem Constraint.joinsNeeded_eq_cons (c : Constraint) :
    ∃ rest, c.joinsNeeded = .catalogObject :: rest := by
  obtain ⟨field, op, v⟩ := c
  cases field <;> exact ⟨_, rfl⟩

theorem flatMap_joinsNeeded_eq_nil_iff (cs : List Constraint) :
    cs.flatMap Constraint.joinsNeeded = [] ↔ cs = [] := by
  rw [List.flatMap_eq_nil_iff]
  constructor
  · intro h
    cases cs with
    | nil => rfl
    | cons c cs =>
      obtain ⟨rest, hc⟩ := c.joinsNeeded_eq_cons
      rw [h c List.mem_cons_self] at hc
      cases hc
  · rintro rfl
    simp

/-- From the empty graph, constraints join the relations they need in order, each at its first
need. -/
theorem relations_compiled (cs : List Constraint) :
    (JoinGraph.empty.joinAll (Constraint.relationsAll cs)).relations =
      (cs.flatMap Constraint.joinsNeeded).eraseDups := by
  rw [JoinGraph.relations_joinAll_empty, Constraint.relationsAll, List.flatMap_assoc]
  simp only [Constraint.flatMap_path_relations]

theorem eraseDups_eq_nil_iff (l : List Relation) : l.eraseDups = [] ↔ l = [] := by
  simp only [List.eq_nil_iff_forall_not_mem, List.mem_eraseDups]

theorem head?_joinsNeeded {cs : List Constraint} (h : cs ≠ []) :
    (cs.flatMap Constraint.joinsNeeded).eraseDups.head? = some .catalogObject := by
  obtain ⟨c, cs', rfl⟩ := List.exists_cons_of_ne_nil h
  obtain ⟨rest, hc⟩ := c.joinsNeeded_eq_cons
  rw [List.flatMap_cons, hc, List.cons_append, List.eraseDups_cons]
  rfl

/-- In a graph with the invariant, the first join is join 0 of the first relation. -/
theorem JoinGraph.Wf.head?_joins {g : JoinGraph} (hg : g.Wf) {r : Relation}
    (h : g.relations.head? = some r) : g.joins.head? = some ⟨0, r⟩ := by
  cases hj : g.joins with
  | nil => simp [JoinGraph.relations, hj] at h
  | cons j js =>
    have hid : j.id = 0 := by simpa [hj] using hg.ids 0 (by simp [hj])
    have hrel : j.relation = r := by simpa [JoinGraph.relations, hj] using h
    rw [← hid, ← hrel]
    rfl

theorem Relation.parse_eq_error {s : String} {e : FilterError} (h : Relation.parse s = .error e) :
    e = .unknownRelation s := by
  unfold Relation.parse at h
  split at h
  · cases h
  · cases h
    rfl

/-- Joining a relation by name keeps the join graph invariant, and a name of no relation is
refused with the graph left as it was. -/
theorem BuildM.joinByName_wf {name : String} {b : Build} (hb : b.graph.Wf) :
    ((BuildM.joinByName name).run.run b).2.graph.Wf ∧
      ∀ err b', (BuildM.joinByName name).run.run b = (.error err, b') →
        err = .unknownRelation name ∧ b' = b := by
  rw [BuildM.run_joinByName]
  cases hp : Relation.parse name with
  | ok r =>
    dsimp only
    refine ⟨by rw [BuildM.run_join]; exact hb.join r, fun err b' h => ?_⟩
    rw [BuildM.run_join] at h
    cases h
  | error e =>
    dsimp only
    refine ⟨hb, fun err b' h => ?_⟩
    cases h
    exact ⟨Relation.parse_eq_error hp, rfl⟩

/-- Under a registry of built-in handlers, compiling keeps the join graph invariant from any graph
that has it, whether it succeeds or fails, and so does joining a relation by name, which changes
nothing when the name is unknown.
From the empty graph, a compiled expression's graph joins exactly the relations its constraints
need, in pre-order and each once, at its first need: the object for every constraint, then the
bucket for a bucket field or the metadata entries for a metadata field. So the graph is empty
exactly when the expression has no constraint and begins with the object's join as join 0
otherwise, and it needs distinct results exactly when a constraint reads metadata. -/
theorem compile_joins_needed_relations_once (R : Registry) (hR : R.LeafOnly) :
    (∀ (limit : Nat) (e : Expression) (g : JoinGraph) (journal : Journal), g.Wf →
      ((R.compileInto limit e).runFrom g journal).2.graph.Wf) ∧
    (∀ (name : String) (b : Build), b.graph.Wf →
      ((BuildM.joinByName name).run.run b).2.graph.Wf ∧
      ∀ err b', (BuildM.joinByName name).run.run b = (.error err, b') →
        err = .unknownRelation name ∧ b' = b) ∧
    (∀ (config : CompilerConfig) (e : Expression) (journal : Journal) (f : CompiledFilter),
      (compile config R (some e) journal).1 = .ok f →
      f.graph.Wf ∧
      f.graph.relations = (e.constraints.flatMap Constraint.joinsNeeded).eraseDups ∧
      (f.graph.joins = [] ↔ e.constraints = []) ∧
      (e.constraints ≠ [] → f.graph.joins.head? = some ⟨0, .catalogObject⟩) ∧
      (f.graph.needsDistinct = true ↔ ∃ c ∈ e.constraints, c.field.toKind = .metadata)) := by
  refine ⟨fun limit e g journal hg => ?_, fun name b hb => BuildM.joinByName_wf hb,
    fun config e journal f hc => ?_⟩
  · obtain ⟨rs, hrs⟩ := R.compileInto_graph limit hR e g journal
    rw [hrs]
    exact hg.joinAll rs
  · obtain ⟨-, hgraph, -⟩ := compile_realizes hR hc
    have hwf : f.graph.Wf := hgraph ▸ JoinGraph.wf_empty.joinAll _
    have hrel : f.graph.relations = (e.constraints.flatMap Constraint.joinsNeeded).eraseDups := by
      rw [hgraph, relations_compiled]
    refine ⟨hwf, hrel, ?_, fun hne => hwf.head?_joins (by rw [hrel]; exact head?_joinsNeeded hne),
      ?_⟩
    · rw [← List.map_eq_nil_iff (f := JoinHandle.relation), ← JoinGraph.relations, hrel,
        eraseDups_eq_nil_iff, flatMap_joinsNeeded_eq_nil_iff]
    · rw [JoinGraph.needsDistinct_iff hwf, hgraph]
      exact (Catalog.mem_relations_compiled e.constraints).2.2

/-- The nested sample compiled from the empty graph joins the object and then the bucket, and
needs no distinct results. -/
theorem compile_nested_joins_object_then_bucket :
    ∃ f, (compile CompilerConfig.default Registry.standard (some Sample.nestedExpression) #[]).1 =
        .ok f ∧ f.graph.relations = [.catalogObject, .bucket] ∧ f.graph.needsDistinct = false := by
  obtain ⟨f, hc⟩ : ∃ f, (compile CompilerConfig.default Registry.standard
      (some Sample.nestedExpression) #[]).1 = .ok f := by
    rw [compile_some_eq]
    exact ⟨_, rfl⟩
  obtain ⟨-, hrel, -, -, hdistinct⟩ :=
    (compile_joins_needed_relations_once _ Registry.leafOnly_standard).2.2 _ _ _ f hc
  refine ⟨f, hc, by rw [hrel]; rfl, ?_⟩
  rw [Bool.eq_false_iff]
  intro h
  obtain ⟨c, hc, hk⟩ := hdistinct.1 h
  revert c
  decide

end CatalogQuery
