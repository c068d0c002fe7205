import CatalogQuery.Proofs.Evaluation
import CatalogQuery.Filter.Sample

/-!
# The comparisons of a compiled predicate

`Predicate.comparisonCount` walks a predicate with a work list and counts its comparisons; it
agrees with the count by recursion on the tree, to which constants and groups add nothing
(`Predicate.countPending_eq`). A compiled expression's predicate has one comparison per
constraint, and two per metadata constraint, which compares the entry's key and its value
(`Specification.compares_of_realizes`).

On a row that survives a compiled filter's joins, every comparison of its predicate is evaluated
without one of the evaluator's fallbacks (`Row.Evaluates`): the row has the column's cell, the
cell is of the type of every scalar it is compared with, a `like` or `notLike` compares a text
cell with one text pattern that the predicate's pattern list holds, and the value has the shape
its operator takes (`Catalog.comparisons_evaluate_without_fallback`). The pattern list reaches
every comparison of any predicate (`Predicate.mem_patterns_of_mem_comparisons`).
-/

namespace CatalogQuery

namespace Predicate

theorem comparesAll_append (ps qs : List Predicate) :
    comparesAll (ps ++ qs) = comparesAll ps + comparesAll qs := by
  induction ps with
  | nil => simp [comparesAll]
  | cons p ps ih =>
    simp only [List.cons_append, comparesAll, ih]
    omega

/-- The work list adds the comparisons of the pending trees to what it has counted. -/
theorem countPending_eq (pending : List Predicate) (acc : Nat) :
    countPending pending acc = comparesAll pending + acc := by
  -- by induction on the size of the work list, which every step makes smaller
  induction hn : sizeAll pending using Nat.strong_induction_on generalizing pending acc with
  | _ n ih =>
    rcases pending with _ | ⟨p, rest⟩
    · simp [countPending, comparesAll]
    · have hrest : sizeAll rest < n := by
        have hp : 0 < p.size := by cases p <;> simp [size]
        simp only [sizeAll] at hn
        omega
      cases p with
      | compare column op v =>
        rw [countPending, ih _ hrest rest _ rfl]
        simp only [comparesAll, compares]
        omega
      | and cs =>
        have hcs : sizeAll (cs ++ rest) < n := by
          simp only [sizeAll, size, sizeAll_append] at hn ⊢
          omega
        rw [countPending, ih _ hcs _ acc rfl, comparesAll_append]
        simp [comparesAll, compares]
      | or cs =>
        have hcs : sizeAll (cs ++ rest) < n := by
          simp only [sizeAll, size, sizeAll_append] at hn ⊢
          omega
        rw [countPending, ih _ hcs _ acc rfl, comparesAll_append]
        simp [comparesAll, compares]
      | always | never =>
        rw [countPending, ih _ hrest rest acc rfl]
        simp [comparesAll, compares]

theorem comparisonCount_eq_compares (p : Predicate) : p.comparisonCount = p.compares := by
  simp [comparisonCount, countPending_eq, comparesAll]

end Predicate

theorem Constraint.compares_leafPredicate (c : Constraint) (g : JoinGraph) :
    (c.leafPredicate g).compares = if c.field.toKind = .metadata then 2 else 1 := by
  obtain ⟨field, op, v⟩ := c
  cases field <;>
    simp [leafPredicate, Predicate.compares, Predicate.comparesAll, FieldId.toKind]

namespace Specification

theorem compares_and (ss : List Specification) :
    (Specification.and ss).predicate.compares = Predicate.comparesAll (predicateAll ss) := by
  cases ss <;> rfl

theorem compares_or (ss : List Specification) :
    (Specification.or ss).predicate.compares = Predicate.comparesAll (predicateAll ss) := by
  cases ss <;> rfl

mutual

/-- A compiled specification compares once per constraint of its expression and once more per
metadata constraint. -/
theorem compares_of_realizes : ∀ (s : Specification) (e : Expression), s.Realizes e →
    s.predicate.compares = e.constraints.countP (fun c => c.field.toKind != .metadata) +
      2 * e.constraints.countP (fun c => c.field.toKind == .metadata)
  | .leaf c' p, .constraint c, ⟨hc, g, hp⟩ => by
    subst hc hp
    rw [predicate, Constraint.compares_leafPredicate]
    by_cases hm : c'.field.toKind = .metadata <;> simp [Expression.constraints, hm]
  | .and ss, .and es, h => by
    rw [compares_and]
    exact comparesAll_of_realizes ss es h
  | .or ss, .or es, h => by
    rw [compares_or]
    exact comparesAll_of_realizes ss es h
  | .leaf .., .and _, h | .leaf .., .or _, h | .and _, .constraint _, h
  | .and _, .or _, h | .or _, .constraint _, h | .or _, .and _, h
  | .default, _, h => by simp [Realizes] at h

theorem comparesAll_of_realizes : ∀ (ss : List Specification) (es : List Expression),
    RealizesAll ss es →
    Predicate.comparesAll (predicateAll ss) =
      (Expression.constraintsAll es).countP (fun c => c.field.toKind != .metadata) +
        2 * (Expression.constraintsAll es).countP (fun c => c.field.toKind == .metadata)
  | [], [], _ => rfl
  | s :: ss, e :: es, ⟨h, hs⟩ => by
    simp only [predicateAll, Predicate.comparesAll, Expression.constraintsAll, List.countP_append]
    rw [compares_of_realizes s e h, comparesAll_of_realizes ss es hs]
    omega
  | [], _ :: _, h | _ :: _, [], h => by simp [RealizesAll] at h

end

end Specification

/-- The work list counts every comparison of a predicate once, constants and groups adding none.
Under a registry of built-in handlers, a compiled expression's predicate has one comparison per
constraint other than metadata and two per metadata constraint; with no expression there is none,
whatever the registry. -/
theorem comparisonCount_counts_comparisons (config : CompilerConfig) (R : Registry)
    (journal : Journal) :
    (∀ p : Predicate, p.comparisonCount = p.compares) ∧
    (R.LeafOnly → ∀ (e : Expression) (f : CompiledFilter),
      (compile config R (some e) journal).1 = .ok f →
      f.predicate.comparisonCount =
        e.constraints.countP (fun c => c.field.toKind != .metadata) +
          2 * e.constraints.countP (fun c => c.field.toKind == .metadata)) ∧
    ∃ f, (compile config R none journal).1 = .ok f ∧ f.predicate.comparisonCount = 0 := by
  refine ⟨Predicate.comparisonCount_eq_compares, fun hR e f hc => ?_, _, rfl, ?_⟩
  · rw [Predicate.comparisonCount_eq_compares, CompiledFilter.predicate]
    exact Specification.compares_of_realizes _ _ (compile_realizes hR hc).1
  · rw [Predicate.comparisonCount_eq_compares]
    rfl

/-- `metadata[project] eq alpha AND (name eq name OR an empty OR)` compiles to a predicate of
three comparisons. -/
theorem comparisonCount_projectAlpha_sample :
    ∃ f, (compile CompilerConfig.default Registry.standard
        (some (.and [Sample.equals (.metadata "project") "alpha",
          .or [Sample.equals .objectName "name", .or []]])) #[]).1 = .ok f ∧
      f.predicate.comparisonCount = 3 := by
  obtain ⟨f, hc⟩ : ∃ f, (compile CompilerConfig.default Registry.standard
      (some (.and [Sample.equals (.metadata "project") "alpha",
        .or [Sample.equals .objectName "name", .or []]])) #[]).1 = .ok f := by
    rw [compile_some_eq]
    exact ⟨_, rfl⟩
  refine ⟨f, hc, ?_⟩
  rw [(comparisonCount_counts_comparisons _ _ _).2.1 Registry.leafOnly_standard _ f hc]
  rfl

/-! ### Every comparison of a compiled predicate is evaluated without a fallback -/

namespace Predicate

mutual

/-- The comparisons of a predicate, left to right: the column, operator and value of each. -/
def comparisons : Predicate → List (Column × Operator × ConstraintValue)
  | .compare column op v => [(column, op, v)]
  | .and cs => comparisonsAll cs
  | .or cs => comparisonsAll cs
  | .always => []
  | .never => []

/-- The comparisons of a list of predicates, left to right. -/
def comparisonsAll : List Predicate → List (Column × Operator × ConstraintValue)
  | [] => []
  | p :: ps => p.comparisons ++ comparisonsAll ps

end

mutual

theorem patternList_eq_flatMap : ∀ p : Predicate,
    p.patternList = p.comparisons.flatMap fun q => patternOf q.2.1 q.2.2
  | .compare column op v => by simp [patternList, comparisons]
  | .and cs => by
    rw [patternList, comparisons]
    exact patternListAll_eq_flatMap cs
  | .or cs => by
    rw [patternList, comparisons]
    exact patternListAll_eq_flatMap cs
  | .always | .never => rfl

theorem patternListAll_eq_flatMap : ∀ ps : List Predicate,
    patternListAll ps = (comparisonsAll ps).flatMap fun q => patternOf q.2.1 q.2.2
  | [] => rfl
  | p :: ps => by
    rw [patternListAll, comparisonsAll, List.flatMap_append, patternList_eq_flatMap p,
      patternListAll_eq_flatMap ps]

end

/-- The work list that collects a predicate's patterns reaches every comparison: the pattern of
each `like` and `notLike` of a text is collected. -/
theorem mem_patterns_of_mem_comparisons {P : Predicate} {column : Column} {op : Operator}
    {p : String} (h : (column, op, .single (.text p)) ∈ P.comparisons) (hop : op.isPattern = true) :
    p ∈ P.patterns := by
  rw [patterns_eq, List.mem_reverse, patternList_eq_flatMap, List.mem_flatMap]
  exact ⟨_, h, by simp [patternOf, hop]⟩

end Predicate

theorem Operator.takesList_eq_false {op : Operator} (h : op.isPattern = true) :
    op.takesList = false := by
  cases op <;> simp_all [Operator.isPattern, Operator.takesList]

/-- A comparison `column op value` is evaluated on a row without a fallback: the row has a cell
for the column, the cell compares with every scalar of the value, a pattern operator meets a text
cell, the value has the shape the operator takes, and a pattern operator's value is one text that
`patterns` holds. -/
structure Row.Evaluates (t : Row) (patterns : List String) (column : Column) (op : Operator)
    (v : ConstraintValue) : Prop where
  cell : (t.cell column).isSome
  compares : ∀ cell ∈ t.cell column, ∀ y ∈ v.scalars, (cell.compare y).isSome
  textual : op.isPattern = true → ∀ cell ∈ t.cell column, ∃ s, cell = .text s
  shape : v.isList = op.takesList
  pattern : op.isPattern = true → ∃ p, v = .single (.text p) ∧ p ∈ patterns

theorem Row.evaluates_of_cell {t : Row} {patterns : List String} {column : Column} {s : Scalar}
    (hcell : t.cell column = some (Cell.ofScalar s)) {op : Operator} {v : ConstraintValue}
    (htyped : ∀ y ∈ v.scalars, y.isId = s.isId) (hshape : v.isList = op.takesList)
    (htext : op.isPattern = true → s.isId = false)
    (hmem : ∀ p, op.isPattern = true → v = .single (.text p) → p ∈ patterns) :
    t.Evaluates patterns column op v where
  cell := by simp [hcell]
  compares := by
    intro cell hc y hy
    rw [hcell, Option.mem_some_iff] at hc
    subst hc
    obtain ⟨o, ho, -⟩ := Cell.compare_ofScalar (htyped y hy)
    simp [ho]
  textual := by
    intro hp cell hc
    rw [hcell, Option.mem_some_iff] at hc
    subst hc
    have hs := htext hp
    cases s with
    | text a => exact ⟨a, rfl⟩
    | id _ => simp [Scalar.isId] at hs
  shape := hshape
  pattern := by
    intro hp
    -- a pattern operator takes one scalar, of the cell's type: a text
    cases v with
    | list ys => simp [ConstraintValue.isList, Operator.takesList_eq_false hp] at hshape
    | single y =>
      have hy := htyped y (by simp [ConstraintValue.scalars])
      cases y with
      | text p => exact ⟨p, rfl, hmem p hp rfl⟩
      | id _ =>
        have hs := htext hp
        rw [← hy] at hs
        simp [Scalar.isId] at hs

theorem Row.cell_attribute {t : Row} {x : Binding} {f : FieldId} (h : t.Shows x f.toKind)
    (j : Option JoinHandle) : t.cell ⟨j, f.toKind.attribute⟩ = some (Cell.ofScalar (x.read f)) := by
  cases f <;>
    simp_all [Row.Shows, FieldId.toKind, FieldKind.attribute, Row.cell, Binding.read, Cell.ofScalar]

theorem Constraint.evaluates_field {R : Registry} {c : Constraint} (hc : c.Admissible R)
    {t : Row} {x : Binding} (hshow : t.Shows x c.field.toKind) (j : Option JoinHandle)
    {patterns : List String}
    (hmem : ∀ p, c.op.isPattern = true → c.value = .single (.text p) → p ∈ patterns) :
    t.Evaluates patterns ⟨j, c.field.toKind.attribute⟩ c.op c.value :=
  Row.evaluates_of_cell (Row.cell_attribute hshow j) (hc.typed_read x) hc.value.shape
    (hc.pattern_read x) hmem

/-- Every comparison of an admissible constraint's leaf predicate is evaluated without a fallback
on a row that shows the constraint's field, whatever graph the predicate's columns name. -/
theorem Constraint.evaluates_leafPredicate {R : Registry} {c : Constraint} (hc : c.Admissible R)
    {t : Row} {x : Binding} (hshow : t.Shows x c.field.toKind) (g : JoinGraph)
    {patterns : List String} : ∀ q ∈ (c.leafPredicate g).comparisons,
      (∀ p, q.2.1.isPattern = true → q.2.2 = .single (.text p) → p ∈ patterns) →
      t.Evaluates patterns q.1 q.2.1 q.2.2 := by
  obtain ⟨field, op, v⟩ := c
  cases field
  case metadata key =>
    intro q hq hmem
    simp only [leafPredicate, Predicate.comparisons, Predicate.comparisonsAll, List.cons_append,
      List.nil_append, List.mem_cons, List.not_mem_nil, or_false] at hq
    rcases hq with rfl | rfl
    · have hentry : t.entry = some x.entry := hshow
      exact Row.evaluates_of_cell (s := .text x.entry.key)
        (by simp [Row.cell, hentry, Cell.ofScalar]) (by simp [ConstraintValue.scalars, Scalar.isId])
        rfl (by simp [Operator.isPattern]) hmem
    · exact Constraint.evaluates_field hc hshow _ hmem
  all_goals
    intro q hq hmem
    simp only [leafPredicate, Predicate.comparisons, List.mem_singleton] at hq
    subst hq
    exact Constraint.evaluates_field hc hshow _ hmem

namespace Specification

theorem comparisons_and (ss : List Specification) :
    (Specification.and ss).predicate.comparisons = Predicate.comparisonsAll (predicateAll ss) := by
  cases ss <;> rfl

theorem comparisons_or (ss : List Specification) :
    (Specification.or ss).predicate.comparisons = Predicate.comparisonsAll (predicateAll ss) := by
  cases ss <;> rfl

mutual

theorem comparisons_of_realizes : ∀ (s : Specification) (e : Expression), s.Realizes e →
    ∀ q ∈ s.predicate.comparisons, ∃ c ∈ e.constraints, ∃ g, q ∈ (c.leafPredicate g).comparisons
  | .leaf c' p, .constraint c, ⟨hc, g, hp⟩ => by
    subst hc hp
    intro q hq
    exact ⟨c', by simp [Expression.constraints], g, hq⟩
  | .and ss, .and es, h => by
    rw [comparisons_and]
    exact comparisonsAll_of_realizes ss es h
  | .or ss, .or es, h => by
    rw [comparisons_or]
    exact comparisonsAll_of_realizes ss es h
  | .leaf .., .and _, h | .leaf .., .or _, h | .and _, .constraint _, h
  | .and _, .or _, h | .or _, .constraint _, h | .or _, .and _, h
  | .default, _, h => by simp [Realizes] at h

theorem comparisonsAll_of_realizes : ∀ (ss : List Specification) (es : List Expression),
    RealizesAll ss es → ∀ q ∈ Predicate.comparisonsAll (predicateAll ss),
      ∃ c ∈ Expression.constraintsAll es, ∃ g, q ∈ (c.leafPredicate g).comparisons
  | [], [], _ => by simp [predicateAll, Predicate.comparisonsAll]
  | s :: ss, e :: es, ⟨h, hs⟩ => by
    intro q hq
    simp only [predicateAll, Predicate.comparisonsAll, List.mem_append] at hq
    rcases hq with hq | hq
    · obtain ⟨c, hc, g, hcq⟩ := comparisons_of_realizes s e h q hq
      exact ⟨c, by simp [Expression.constraintsAll, hc], g, hcq⟩
    · obtain ⟨c, hc, g, hcq⟩ := comparisonsAll_of_realizes ss es hs q hq
      exact ⟨c, by simp [Expression.constraintsAll, hc], g, hcq⟩
  | [], _ :: _, h | _ :: _, [], h => by simp [RealizesAll] at h

end

end Specification

namespace Catalog

/-- On every row that survives the joins of a filter compiled under a registry of built-in
handlers, every comparison of its predicate is evaluated without a fallback: the row has the cell of the column, because the join owning the
column was made; the cell compares with every scalar of the value, because the value was checked
against the field's type; a `like` or `notLike` compares a text cell with a single text that the
predicate's pattern list holds; and the value has the shape the operator takes. -/
theorem comparisons_evaluate_without_fallback (config : CompilerConfig) (R : Registry)
    (hR : R.LeafOnly) (e : Expression) (journal : Journal) (f : CompiledFilter)
    (hc : (compile config R (some e) journal).1 = .ok f) (c : Catalog) (r : Revision) (t : Row)
    (ht : t ∈ c.rowsOf f.graph r) :
    ∀ q ∈ f.predicate.comparisons, t.Evaluates f.predicate.patterns q.1 q.2.1 q.2.2 := by
  obtain ⟨hreal, hgraph, hadm⟩ := compile_realizes hR hc
  have hwf : f.graph.Wf := hgraph ▸ JoinGraph.wf_empty.joinAll _
  obtain ⟨x, -, rfl⟩ := (c.mem_rowsOf hwf r t).1 ht
  intro q hq
  obtain ⟨k, hk, g, hkq⟩ := Specification.comparisons_of_realizes _ _ hreal q hq
  have hshow : (Row.ofBinding f.graph.relations r x).Shows x k.field.toKind := by
    rw [hgraph]
    exact shows_ofBinding e.constraints r x k hk
  refine Constraint.evaluates_leafPredicate (hadm k hk) hshow g q hkq fun p hp hv => ?_
  obtain ⟨column, op, v⟩ := q
  subst hv
  exact Predicate.mem_patterns_of_mem_comparisons hq hp

/-- The compiled filter of `metadata[project] like al%`: the object join, then the metadata
join, and the key and the value compared on the same entry. -/
theorem compile_projectLike :
    (compile CompilerConfig.default Registry.standard
        (some (.constraint ⟨.metadata "project", .like, .single (.text "al%")⟩)) #[]).1 =
      .ok ⟨.leaf ⟨.metadata "project", .like, .single (.text "al%")⟩ (.and [
          .compare ⟨some ⟨1, .metadataEntries⟩, .metadataKey⟩ .eq (.single (.text "project")),
          .compare ⟨some ⟨1, .metadataEntries⟩, .metadataValue⟩ .like (.single (.text "al%"))]),
        ⟨[⟨0, .catalogObject⟩, ⟨1, .metadataEntries⟩], true⟩⟩ := by
  rw [compile_some_eq]
  rfl

/-- In the sample catalog, a row that survives the joins of `metadata[project] like al%`
evaluates both comparisons without a fallback. -/
theorem comparisons_evaluate_projectLike_sample :
    ∃ f, (compile CompilerConfig.default Registry.standard
        (some (.constraint ⟨.metadata "project", .like, .single (.text "al%")⟩)) #[]).1 = .ok f ∧
      ∃ r ∈ Sample.catalog.1.revisions, ∃ t ∈ Sample.catalog.1.rowsOf f.graph r,
        ∀ q ∈ f.predicate.comparisons, t.Evaluates f.predicate.patterns q.1 q.2.1 q.2.2 := by
  obtain ⟨r, hr, hpos⟩ : ∃ r ∈ Sample.catalog.1.revisions, 0 < (Sample.catalog.1.rowsOf
      ⟨[⟨0, .catalogObject⟩, ⟨1, .metadataEntries⟩], true⟩ r).length := by decide
  have hrows := List.ne_nil_of_length_pos hpos
  exact ⟨_, compile_projectLike, r, hr, _, List.head_mem hrows,
    comparisons_evaluate_without_fallback _ _ Registry.leafOnly_standard _ _ _ compile_projectLike
      _ _ _ (List.head_mem hrows)⟩

end Catalog

end CatalogQuery
