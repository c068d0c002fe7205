import CatalogQuery.Proofs.Semantics
import CatalogQuery.Catalog.Sample
import Mathlib

/-!
# Searching a catalog with a compiled filter

A search with a compiled expression returns, over all its pages, every revision of the catalog
that the expression selects, each once, and counts as many (`Catalog.allPages_selected_once`). A
revision is selected when some binding of its object, the object's bucket and one of its
metadata entries makes the expression hold, where the object must be the revision's own and
last committed at the revision's time whenever the expression has a constraint, the bucket must
exist whenever a constraint reads a bucket field, and the entry must be one of the revision's
whenever a constraint reads metadata (`Catalog.Selects`). This needs the regex engine to build
the regex of every `like` pattern of the expression (`RegexBuild.BuildsAll`): a pattern it
refuses fails the search (`Catalog.allPages_fails_on_oversized_pattern`).

The proof reads the rows of a revision as the bindings the joins reach (`Catalog.mem_rowsOf`),
the match loop as a filter of the revisions (`Catalog.matching_eq`), and the pages as cuts of
one sorted list (`Catalog.allPages_eq`).
-/

namespace CatalogQuery

/-- The row of a revision that the joins of the relations `S` make from a binding. -/
def Row.ofBinding (S : List Relation) (r : Revision) (x : Binding) : Row where
  revision := r
  object := if Relation.catalogObject ∈ S then some x.object else none
  bucket := if Relation.bucket ∈ S then some x.bucket else none
  entry := if Relation.metadataEntries ∈ S then some x.entry else none

namespace Catalog

variable (c : Catalog)

/-- A binding that the joins of the relations `S` reach from revision `r`: the revision's latest
object, the bucket of that object, and one of the revision's metadata entries, each as far as
`S` joins it. -/
def Binds (S : List Relation) (r : Revision) (x : Binding) : Prop :=
  (Relation.catalogObject ∈ S →
    c.object? r.bucketId r.name = some x.object ∧ x.object.lastCommitTime = r.commitTime) ∧
  (Relation.bucket ∈ S → c.bucket? x.object.bucketId = some x.bucket) ∧
  (Relation.metadataEntries ∈ S → x.entry ∈ r.metadata)

/-! ### The rows of a revision -/

theorem mem_joinRows_catalogObject (rows : List Row) (t : Row) :
    t ∈ c.joinRows rows .catalogObject ↔ ∃ t₀ ∈ rows, ∃ o,
      c.object? t₀.revision.bucketId t₀.revision.name = some o ∧
      o.lastCommitTime = t₀.revision.commitTime ∧ t = { t₀ with object := some o } := by
  simp only [joinRows, List.mem_filterMap]
  constructor
  · rintro ⟨t₀, ht₀, h⟩
    refine ⟨t₀, ht₀, ?_⟩
    split at h
    · next o ho =>
      split at h
      · next hl => exact ⟨o, ho, by simpa using hl, (Option.some.inj h).symm⟩
      · cases h
    · cases h
  · rintro ⟨t₀, ht₀, o, ho, hl, rfl⟩
    exact ⟨t₀, ht₀, by simp [ho, hl]⟩

theorem mem_joinRows_bucket (rows : List Row) (t : Row) :
    t ∈ c.joinRows rows .bucket ↔ ∃ t₀ ∈ rows, ∃ o b, t₀.object = some o ∧
      c.bucket? o.bucketId = some b ∧ t = { t₀ with bucket := some b } := by
  simp only [joinRows, List.mem_filterMap]
  constructor
  · rintro ⟨t₀, ht₀, h⟩
    refine ⟨t₀, ht₀, ?_⟩
    split at h
    · next o ho =>
      obtain ⟨b, hb, rfl⟩ := Option.map_eq_some_iff.1 h
      exact ⟨o, b, ho, hb, rfl⟩
    · cases h
  · rintro ⟨t₀, ht₀, o, b, ho, hb, rfl⟩
    exact ⟨t₀, ht₀, by simp [ho, hb]⟩

theorem mem_joinRows_metadataEntries (rows : List Row) (t : Row) :
    t ∈ c.joinRows rows .metadataEntries ↔ ∃ t₀ ∈ rows, ∃ m ∈ t₀.revision.metadata,
      t = { t₀ with entry := some m } := by
  simp only [joinRows, List.mem_flatMap, List.mem_map]
  constructor
  · rintro ⟨t₀, ht₀, m, hm, rfl⟩
    exact ⟨t₀, ht₀, m, hm, rfl⟩
  · rintro ⟨t₀, ht₀, m, hm, rfl⟩
    exact ⟨t₀, ht₀, m, hm, rfl⟩

/-- Joining distinct relations, each after its parent, from the bare revision reaches exactly
the rows of the bindings that the joined relations admit. -/
theorem mem_foldl_joinRows (r : Revision) (L : List Relation) (hnd : L.Nodup)
    (hpf : Relation.ParentsFirst L) (t : Row) :
    t ∈ L.foldl c.joinRows [{ revision := r }] ↔ ∃ x, c.Binds L r x ∧ t = Row.ofBinding L r x := by
  induction L using List.reverseRecOn generalizing t with
  | nil =>
    simp only [List.foldl_nil, List.mem_singleton]
    constructor
    · rintro rfl
      exact ⟨⟨⟨0, "", "", "", 0⟩, ⟨0, "", ""⟩, ⟨"", ""⟩⟩, by simp [Binds], by simp [Row.ofBinding]⟩
    · rintro ⟨x, -, rfl⟩
      simp [Row.ofBinding]
  | append_singleton L rel ih =>
    obtain ⟨hpf', hpar⟩ := JoinGraph.parentsFirst_of_append hpf
    obtain ⟨hrel, hnd'⟩ := (List.nodup_concat L rel).1 (by rwa [List.concat_eq_append])
    have ih' := ih hnd' hpf'
    rw [List.foldl_append, List.foldl_cons, List.foldl_nil]
    cases rel with
    | catalogObject =>
      have hb : Relation.bucket ∉ L := fun hb =>
        hrel (JoinGraph.parent_mem_of_parentsFirst hpf' hb rfl)
      rw [mem_joinRows_catalogObject]
      constructor
      · rintro ⟨t₀, ht₀, o, ho, hlct, rfl⟩
        obtain ⟨x, hx, rfl⟩ := (ih' t₀).1 ht₀
        refine ⟨{ x with object := o }, ⟨fun _ => ⟨ho, hlct⟩, fun h => ?_, fun h => ?_⟩, ?_⟩
        · simp only [List.mem_append, List.mem_singleton, reduceCtorEq, or_false] at h
          exact absurd h hb
        · exact hx.2.2 (by simpa using h)
        · simp [Row.ofBinding, hrel, hb]
      · rintro ⟨x, hx, rfl⟩
        have hobj := hx.1 (by simp)
        refine ⟨Row.ofBinding L r x,
          (ih' _).2 ⟨x, ⟨fun h => absurd h hrel, fun h => absurd h hb,
            fun h => hx.2.2 (by simp [h])⟩, rfl⟩, x.object, hobj.1, hobj.2, ?_⟩
        simp [Row.ofBinding, hrel, hb]
    | bucket =>
      have hco : Relation.catalogObject ∈ L := hpar _ rfl
      rw [mem_joinRows_bucket]
      constructor
      · rintro ⟨t₀, ht₀, o, b, ho, hb, rfl⟩
        obtain ⟨x, hx, rfl⟩ := (ih' t₀).1 ht₀
        have hox : o = x.object := by
          simp only [Row.ofBinding, hco, if_true, Option.some.injEq] at ho
          exact ho.symm
        subst hox
        refine ⟨{ x with bucket := b }, ⟨fun h => hx.1 (by simpa using h), fun _ => hb,
          fun h => hx.2.2 (by simpa using h)⟩, ?_⟩
        simp [Row.ofBinding, hco, hrel]
      · rintro ⟨x, hx, rfl⟩
        refine ⟨Row.ofBinding L r x,
          (ih' _).2 ⟨x, ⟨fun h => hx.1 (by simp [h]), fun h => absurd h hrel,
            fun h => hx.2.2 (by simp [h])⟩, rfl⟩, x.object, x.bucket,
          by simp [Row.ofBinding, hco], hx.2.1 (by simp), ?_⟩
        simp [Row.ofBinding, hco, hrel]
    | metadataEntries =>
      rw [mem_joinRows_metadataEntries]
      constructor
      · rintro ⟨t₀, ht₀, m, hm, rfl⟩
        obtain ⟨x, hx, rfl⟩ := (ih' t₀).1 ht₀
        refine ⟨{ x with entry := m }, ⟨fun h => hx.1 (by simpa using h),
          fun h => hx.2.1 (by simpa using h), fun _ => hm⟩, ?_⟩
        simp [Row.ofBinding, hrel]
      · rintro ⟨x, hx, rfl⟩
        refine ⟨Row.ofBinding L r x,
          (ih' _).2 ⟨x, ⟨fun h => hx.1 (by simp [h]), fun h => hx.2.1 (by simp [h]),
            fun h => absurd h hrel⟩, rfl⟩, x.entry, hx.2.2 (by simp), ?_⟩
        simp [Row.ofBinding, hrel]

/-- The rows of a revision under a graph grown by `join` are the rows of the bindings its
relations admit. -/
theorem mem_rowsOf {g : JoinGraph} (hg : g.Wf) (r : Revision) (t : Row) :
    t ∈ c.rowsOf g r ↔ ∃ x, c.Binds g.relations r x ∧ t = Row.ofBinding g.relations r x := by
  have h := c.mem_foldl_joinRows r g.relations hg.nodup hg.parentsFirst t
  rwa [JoinGraph.relations, List.foldl_map] at h

theorem length_foldl_joinRows_le (L : List Relation) (hL : Relation.metadataEntries ∉ L) :
    ∀ rows : List Row, rows.length ≤ 1 → (L.foldl c.joinRows rows).length ≤ 1 := by
  induction L with
  | nil => exact fun _ h => h
  | cons rel L ih =>
    intro rows hrows
    have hL' : Relation.metadataEntries ∉ L := fun h => hL (List.mem_cons_of_mem _ h)
    rw [List.foldl_cons]
    refine ih hL' _ (Nat.le_trans ?_ hrows)
    cases rel with
    | catalogObject => exact List.length_filterMap_le _ _
    | bucket => exact List.length_filterMap_le _ _
    | metadataEntries => exact absurd List.mem_cons_self hL

theorem length_rowsOf_le {g : JoinGraph} (hg : Relation.metadataEntries ∉ g.relations)
    (r : Revision) : (c.rowsOf g r).length ≤ 1 := by
  have h := c.length_foldl_joinRows_le g.relations hg [{ revision := r }] (le_refl _)
  rwa [JoinGraph.relations, List.foldl_map] at h

end Catalog

theorem JoinGraph.needsDistinct_iff {g : JoinGraph} (hg : g.Wf) :
    g.needsDistinct = true ↔ Relation.metadataEntries ∈ g.relations := by
  rw [hg.distinct, List.any_eq_true]
  constructor
  · rintro ⟨rel, hrel, hf⟩
    cases rel with
    | metadataEntries => exact hrel
    | catalogObject | bucket => simp [Relation.fansOut, Relation.ancestors, Relation.oneToMany] at hf
  · intro h
    exact ⟨_, h, rfl⟩

/-! ### The match loop -/

namespace Catalog

/-- One row's step of the match loop: a passing row adds its revision, once per id when results
must be distinct. -/
def keepRow (P : Row → Bool) (distinct : Bool) (r : Revision) (acc : Array Revision × List Int64)
    (t : Row) : Array Revision × List Int64 :=
  if !P t then acc
  else if distinct && acc.2.contains r.id then acc
  else (acc.1.push r, if distinct then r.id :: acc.2 else acc.2)

section Loop

variable (P : Row → Bool) (r : Revision)

theorem foldl_keepRow_of_mem (ts : List Row) (acc : Array Revision × List Int64)
    (hr : r.id ∈ acc.2) : ts.foldl (keepRow P true r) acc = acc := by
  induction ts with
  | nil => rfl
  | cons t ts ih =>
    rw [List.foldl_cons]
    have hstep : keepRow P true r acc t = acc := by
      unfold keepRow
      split
      · rfl
      · rw [if_pos (by simp [hr])]
    rw [hstep, ih]

/-- With distinct results, a revision not yet seen is added once if some row passes. -/
theorem foldl_keepRow_fresh (ts : List Row) (acc : Array Revision × List Int64)
    (hr : r.id ∉ acc.2) :
    ts.foldl (keepRow P true r) acc =
      if ts.any P then (acc.1.push r, r.id :: acc.2) else acc := by
  induction ts with
  | nil => rfl
  | cons t ts ih =>
    rw [List.foldl_cons, List.any_cons]
    by_cases hp : P t = true
    · have hstep : keepRow P true r acc t = (acc.1.push r, r.id :: acc.2) := by
        simp [keepRow, hp, hr]
      rw [hstep, foldl_keepRow_of_mem P r ts _ List.mem_cons_self]
      simp [hp]
    · have hstep : keepRow P true r acc t = acc := by simp [keepRow, hp]
      rw [hstep, ih]
      simp [hp]

/-- Without distinct results, a revision of at most one row is added if that row passes. -/
theorem foldl_keepRow_single (ts : List Row) (acc : Array Revision × List Int64)
    (hts : ts.length ≤ 1) :
    ts.foldl (keepRow P false r) acc = if ts.any P then (acc.1.push r, acc.2) else acc := by
  match ts, hts with
  | [], _ => rfl
  | [t], _ =>
    by_cases hp : P t = true
    · simp [keepRow, hp]
    · simp [keepRow, hp]

/-- The match loop keeps, in order, the revisions some row of which passes, when revision ids
are distinct and, without distinct results, no revision has two rows. -/
theorem foldl_foldl_keepRow (distinct : Bool) (rows : Revision → List Row) :
    ∀ (rs : List Revision) (acc : Array Revision × List Int64),
      (rs.map (·.id)).Nodup → (∀ r ∈ rs, r.id ∉ acc.2) →
      (distinct = false → ∀ r ∈ rs, (rows r).length ≤ 1) →
      (rs.foldl (fun acc r => (rows r).foldl (keepRow P distinct r) acc) acc).1.toList =
        acc.1.toList ++ rs.filter fun r => (rows r).any P
  | [], acc, _, _, _ => by simp
  | r :: rs, acc, hnd, hfresh, hone => by
    obtain ⟨hr, hnd'⟩ := List.nodup_cons.1 hnd
    have hr' : ∀ r' ∈ rs, r'.id ≠ r.id := by
      intro r' h he
      apply hr
      simp only [List.mem_map]
      exact ⟨r', h, he⟩
    rw [List.foldl_cons, List.filter_cons]
    have hnext : ∃ acc', (rows r).foldl (keepRow P distinct r) acc = acc' ∧
        acc'.1.toList = acc.1.toList ++ (if (rows r).any P then [r] else []) ∧
        ∀ r' ∈ rs, r'.id ∉ acc'.2 := by
      cases distinct
      · refine ⟨_, rfl, ?_, ?_⟩ <;> rw [foldl_keepRow_single P r _ _ (hone rfl r List.mem_cons_self)]
        · split <;> simp
        · split <;> exact fun r' h => hfresh r' (List.mem_cons_of_mem _ h)
      · refine ⟨_, rfl, ?_, ?_⟩ <;> rw [foldl_keepRow_fresh P r _ _ (hfresh r List.mem_cons_self)]
        · split <;> simp
        · split
          · intro r' h hmem
            rcases List.mem_cons.1 hmem with he | hmem
            · exact hr' r' h he
            · exact hfresh r' (List.mem_cons_of_mem _ h) hmem
          · exact fun r' h => hfresh r' (List.mem_cons_of_mem _ h)
    obtain ⟨acc', hacc', hlist, hfresh'⟩ := hnext
    rw [hacc', foldl_foldl_keepRow distinct rows rs acc' hnd' hfresh'
      (fun hd r' h => hone hd r' (List.mem_cons_of_mem _ h)), hlist]
    split <;> simp

end Loop

/-! ### The patterns of a predicate -/

end Catalog

namespace Predicate

/-- The pattern a comparison matches, if it is a `like` or `notLike` of a text. -/
def patternOf (op : Operator) : ConstraintValue → List String
  | .single (.text s) => if op.isPattern then [s] else []
  | _ => []

mutual

/-- The patterns of the comparisons of a predicate, left to right. -/
def patternList : Predicate → List String
  | .compare _ op v => patternOf op v
  | .and cs => patternListAll cs
  | .or cs => patternListAll cs
  | .always => []
  | .never => []

/-- The patterns of the comparisons of a list of predicates, left to right. -/
def patternListAll : List Predicate → List String
  | [] => []
  | p :: ps => p.patternList ++ patternListAll ps

end

theorem patternListAll_append (ps qs : List Predicate) :
    patternListAll (ps ++ qs) = patternListAll ps ++ patternListAll qs := by
  induction ps with
  | nil => rfl
  | cons p ps ih => simp [patternListAll, ih]

theorem patternOf_eq_nil {op : Operator} {v : ConstraintValue}
    (hv : ∀ s, op.isPattern = true → v = .single (.text s) → False) : patternOf op v = [] := by
  unfold patternOf
  split
  · next s =>
    cases hp : op.isPattern
    · rfl
    · exact absurd rfl (hv s hp)
  · rfl

/-- The work list collects the patterns of the pending predicates, last first. -/
theorem patterns_go (pending : List Predicate) (acc : List String) :
    patterns.go pending acc = (patternListAll pending).reverse ++ acc := by
  -- by induction on the size of the work list, which every step makes smaller
  induction hn : sizeAll pending using Nat.strong_induction_on generalizing pending acc with
  | _ n ih =>
    rcases pending with _ | ⟨p, rest⟩
    · simp [patterns.go, patternListAll]
    · cases p with
      | compare column op v =>
        have hrest : sizeAll rest < n := by
          simp only [sizeAll, size] at hn
          omega
        by_cases hpv : ∃ s, op.isPattern = true ∧ v = .single (.text s)
        · obtain ⟨s, hp, rfl⟩ := hpv
          rw [patterns.go, ih _ hrest rest _ rfl]
          · simp [patternListAll, patternList, patternOf, hp]
          · exact hp
        · have hv : ∀ s, op.isPattern = true → v = .single (.text s) → False :=
            fun s hp hv => hpv ⟨s, hp, hv⟩
          rw [patterns.go, ih _ hrest rest _ rfl]
          · simp [patternListAll, patternList, patternOf_eq_nil hv]
          · exact hv
      | and cs =>
        have hcs : sizeAll (cs ++ rest) < n := by
          simp only [sizeAll, size, sizeAll_append] at hn ⊢
          omega
        rw [patterns.go, ih _ hcs (cs ++ rest) acc rfl, patternListAll_append]
        simp [patternListAll, patternList]
      | or cs =>
        have hcs : sizeAll (cs ++ rest) < n := by
          simp only [sizeAll, size, sizeAll_append] at hn ⊢
          omega
        rw [patterns.go, ih _ hcs (cs ++ rest) acc rfl, patternListAll_append]
        simp [patternListAll, patternList]
      | always | never =>
        have hrest : sizeAll rest < n := by
          simp only [sizeAll, size] at hn
          omega
        rw [patterns.go, ih _ hrest rest acc rfl]
        simp [patternListAll, patternList]

theorem patterns_eq (p : Predicate) : p.patterns = p.patternList.reverse := by
  simp [patterns, patterns_go, patternListAll]

end Predicate

/-- The patterns of a constraint: its value, if it is a `like` or `notLike` of a text. -/
def Constraint.patterns (c : Constraint) : List String := Predicate.patternOf c.op c.value

/-- The `like` and `notLike` patterns of an expression, in pre-order. -/
def Expression.patterns (e : Expression) : List String := e.constraints.flatMap Constraint.patterns

@[simp]
theorem Expression.patterns_constraint (k : Constraint) :
    (Expression.constraint k).patterns = k.patterns := by
  simp [Expression.patterns, Expression.constraints]

theorem Constraint.patternList_leafPredicate (c : Constraint) (g : JoinGraph) :
    (c.leafPredicate g).patternList = c.patterns := by
  obtain ⟨field, op, v⟩ := c
  cases field <;>
    simp [leafPredicate, Predicate.patternList, Predicate.patternListAll, Predicate.patternOf,
      Operator.isPattern, Constraint.patterns]

namespace Specification

theorem patternList_and (ss : List Specification) :
    (Specification.and ss).predicate.patternList = Predicate.patternListAll (predicateAll ss) := by
  cases ss <;> rfl

theorem patternList_or (ss : List Specification) :
    (Specification.or ss).predicate.patternList = Predicate.patternListAll (predicateAll ss) := by
  cases ss <;> rfl

mutual

/-- A compiled specification's predicate tests the patterns of its expression's constraints. -/
theorem patternList_of_realizes : ∀ (s : Specification) (e : Expression), s.Realizes e →
    s.predicate.patternList = e.constraints.flatMap Constraint.patterns
  | .leaf c' p, .constraint c, ⟨hc, g, hp⟩ => by
    subst hc hp
    simp [predicate, Constraint.patternList_leafPredicate, Expression.constraints]
  | .and ss, .and es, h => by
    rw [patternList_and]
    exact patternListAll_of_realizes ss es h
  | .or ss, .or es, h => by
    rw [patternList_or]
    exact patternListAll_of_realizes ss es h
  | .leaf .., .and _, h | .leaf .., .or _, h | .and _, .constraint _, h
  | .and _, .or _, h | .or _, .constraint _, h | .or _, .and _, h
  | .default, _, h => by simp [Realizes] at h

theorem patternListAll_of_realizes : ∀ (ss : List Specification) (es : List Expression),
    RealizesAll ss es →
    Predicate.patternListAll (predicateAll ss) =
      (Expression.constraintsAll es).flatMap Constraint.patterns
  | [], [], _ => rfl
  | s :: ss, e :: es, ⟨h, hs⟩ => by
    simp only [predicateAll, Predicate.patternListAll, Expression.constraintsAll,
      List.flatMap_append]
    rw [patternList_of_realizes s e h, patternListAll_of_realizes ss es hs]
  | [], _ :: _, h | _ :: _, [], h => by simp [RealizesAll] at h

end

end Specification

/-- The regex engine builds the regex of every pattern of a list. -/
def RegexBuild.BuildsAll (build : RegexBuild) (ps : List String) : Prop :=
  ∀ p ∈ ps, build (Like.toRegex p) = .ok ()

theorem RegexBuild.forM_pattern_ok {build : RegexBuild} {ps : List String}
    (h : build.BuildsAll ps) : ps.forM build.pattern = .ok () := by
  induction ps with
  | nil => rfl
  | cons p ps ih =>
    rw [List.forM, RegexBuild.pattern, h p List.mem_cons_self]
    exact ih fun q hq => h q (List.mem_cons_of_mem _ hq)

namespace Catalog

variable (c : Catalog)

/-- When the engine builds the regex of its patterns, matching keeps the revisions of the
catalog some row of which passes the predicate, in catalog order, provided revision ids are
distinct and, without distinct results, no revision has two rows. -/
theorem matching_eq (build : RegexBuild) (f : CompiledFilter)
    (hbuild : build.BuildsAll f.predicate.patterns) (hids : (c.revisions.map (·.id)).Nodup)
    (hone : f.needsDistinct = false → ∀ r ∈ c.revisions, (c.rowsOf f.graph r).length ≤ 1) :
    ∃ record, c.matching build f =
      .ok (c.revisions.filter fun r => (c.rowsOf f.graph r).any f.predicate.holds, record) := by
  have hfold := foldl_foldl_keepRow f.predicate.holds f.needsDistinct (c.rowsOf f.graph)
    c.revisions (#[], []) hids (fun _ _ h => by simp at h) hone
  unfold matching
  dsimp only
  rw [RegexBuild.forM_pattern_ok hbuild]
  erw [hfold]
  exact ⟨_, rfl⟩

theorem matching_eq_error {build : RegexBuild} {f : CompiledFilter} {err : FilterError}
    (h : f.predicate.patterns.forM build.pattern = .error err) :
    c.matching build f = .error err := by
  unfold matching
  dsimp only
  rw [h]
  rfl

/-! ### Pages -/

theorem sortRevisions_perm (order : OrderBy) (rows : List Revision) :
    (c.sortRevisions order rows).Perm rows := by
  unfold sortRevisions
  cases order <;> exact List.mergeSort_perm _ _

/-- The rows of all pages of a search, in page order: the first page gives the page count, then
each page is read in turn. -/
def allPages (build : RegexBuild) (f : CompiledFilter) (order : OrderBy) (size : UInt64) :
    Except FilterError (List Revision) := do
  let (first, _) ← c.findAll build f ⟨0, size, order⟩
  let pages ← (List.range first.totalPages).mapM fun k => do
    let (page, _) ← c.findAll build f ⟨k.toUInt64, size, order⟩
    pure page.rows
  pure pages.flatten

theorem findAll_eq {build : RegexBuild} {f : CompiledFilter} {rows : List Revision}
    {record : LogRecord} (h : c.matching build f = .ok (rows, record)) (req : PageRequest) :
    ∃ p, c.findAll build f req = .ok (p, record) ∧
      p.rows = ((c.sortRevisions req.order rows).drop
        (req.page.saturatingMul (max req.size 1)).toNat).take (max req.size 1).toNat ∧
      p.totalPages = ((c.sortRevisions req.order rows).length + (max req.size 1).toNat - 1) /
        (max req.size 1).toNat :=
  ⟨_, by unfold findAll; rw [h]; rfl, rfl, rfl⟩

theorem mapM_ok {α β ε : Type} (F : α → Except ε β) (G : α → β) :
    ∀ l : List α, (∀ a ∈ l, F a = .ok (G a)) → l.mapM F = .ok (l.map G)
  | [], _ => rfl
  | a :: l, hF => by
    rw [List.mapM_cons, hF a List.mem_cons_self,
      mapM_ok F G l fun b hb => hF b (List.mem_cons_of_mem _ hb)]
    rfl

/-- The first `m` pages of size `s` are the first `m * s` rows. -/
theorem flatten_pages (l : List Revision) (s : Nat) :
    ∀ m, ((List.range m).map fun k => (l.drop (k * s)).take s).flatten = l.take (m * s)
  | 0 => by simp
  | m + 1 => by
    rw [List.range_succ, List.map_append, List.flatten_append, flatten_pages l s m,
      Nat.succ_mul, List.take_add]
    simp

theorem le_pages_mul (n s : Nat) (hs : 0 < s) : n ≤ (n + s - 1) / s * s := by
  have h1 := Nat.div_add_mod (n + s - 1) s
  have h2 := Nat.mod_lt (n + s - 1) hs
  rw [Nat.mul_comm]
  omega

/-- A page holds at least one row, whatever size is asked. -/
theorem pageSize_pos (size : UInt64) : 0 < (max size 1).toNat := by
  rw [UInt64.toNat_max_one]
  omega

theorem pages_le (n s : Nat) (hs : 0 < s) : (n + s - 1) / s ≤ n := by
  rcases Nat.eq_zero_or_pos n with rfl | hn
  · simp [Nat.div_eq_of_lt (Nat.sub_lt hs Nat.zero_lt_one)]
  · rw [Nat.div_le_iff_le_mul_add_pred hs]
    have : n ≤ s * n := Nat.le_mul_of_pos_left n hs
    omega

/-- Saturating the first row of a page changes nothing on a list a word can count: the saturated
position and every position past it are beyond its end. -/
theorem drop_saturatingMul {α : Type} (l : List α) (hl : l.length < UInt64.size) (a b : UInt64) :
    l.drop (a.saturatingMul b).toNat = l.drop (a.toNat * b.toNat) := by
  rw [UInt64.toNat_saturatingMul]
  by_cases h : a.toNat * b.toNat ≤ UInt64.size - 1
  · rw [Nat.min_eq_left h]
  · rw [Nat.min_eq_right (by omega), List.drop_eq_nil_of_le (by omega),
      List.drop_eq_nil_of_le (by omega)]

theorem allPages_eq_error {build : RegexBuild} {f : CompiledFilter} {err : FilterError}
    (h : c.matching build f = .error err) (order : OrderBy) (size : UInt64) :
    c.allPages build f order size = .error err := by
  unfold allPages findAll
  rw [h]
  rfl

theorem allPages_eq {build : RegexBuild} {f : CompiledFilter} {rows : List Revision}
    {record : LogRecord} (h : c.matching build f = .ok (rows, record))
    (hfit : rows.length < UInt64.size) (order : OrderBy) (size : UInt64) :
    c.allPages build f order size = .ok (c.sortRevisions order rows) := by
  have hs := pageSize_pos size
  have hlen : (c.sortRevisions order rows).length < UInt64.size := by
    rwa [(c.sortRevisions_perm order rows).length_eq]
  obtain ⟨first, hfirst, -, hcount⟩ := c.findAll_eq h ⟨0, size, order⟩
  unfold allPages
  rw [hfirst]
  dsimp only [bind, Except.bind]
  rw [mapM_ok _ (fun k => ((c.sortRevisions order rows).drop (k * (max size 1).toNat)).take
    (max size 1).toNat) _ fun k hk => ?_]
  · dsimp only [pure, Except.pure]
    rw [flatten_pages, hcount, List.take_of_length_le (le_pages_mul _ _ hs)]
  · have hk : k < UInt64.size := by
      have := pages_le (c.sortRevisions order rows).length _ hs
      rw [List.mem_range, hcount] at hk
      dsimp only at hk
      omega
    obtain ⟨p, hp, hrows, -⟩ := c.findAll_eq h ⟨k.toUInt64, size, order⟩
    rw [hp]
    dsimp only [bind, Except.bind, pure, Except.pure]
    rw [hrows, drop_saturatingMul _ hlen, Nat.toUInt64, UInt64.toNat_ofNat_of_lt' hk]

/-! ### Selected revisions -/

/-- The relations a compiled expression joins: the object for any constraint, the bucket for a
constraint on a bucket field, and the metadata entries for a metadata constraint. -/
theorem mem_relations_compiled (cs : List Constraint) :
    (Relation.catalogObject ∈ (JoinGraph.empty.joinAll (Constraint.relationsAll cs)).relations ↔
      cs ≠ []) ∧
    (Relation.bucket ∈ (JoinGraph.empty.joinAll (Constraint.relationsAll cs)).relations ↔
      ∃ k ∈ cs, k.field.toKind = .bucketId ∨ k.field.toKind = .bucketName) ∧
    (Relation.metadataEntries ∈ (JoinGraph.empty.joinAll (Constraint.relationsAll cs)).relations ↔
      ∃ k ∈ cs, k.field.toKind = .metadata) := by
  have hmem : ∀ x, x ∈ (JoinGraph.empty.joinAll (Constraint.relationsAll cs)).relations ↔
      ∃ k ∈ cs, x ∈ k.relations ∨ ∃ rel ∈ k.relations, x ∈ rel.ancestors := by
    intro x
    rw [JoinGraph.mem_relations_joinAll JoinGraph.wf_empty]
    simp only [JoinGraph.empty, JoinGraph.relations, List.map_nil, List.not_mem_nil, false_or,
      Constraint.relationsAll, List.mem_flatMap]
    constructor
    · rintro (⟨k, hk, hx⟩ | ⟨rel, ⟨k, hk, hrel⟩, hx⟩)
      · exact ⟨k, hk, .inl hx⟩
      · exact ⟨k, hk, .inr ⟨rel, hrel, hx⟩⟩
    · rintro ⟨k, hk, hx | ⟨rel, hrel, hx⟩⟩
      · exact .inl ⟨k, hk, hx⟩
      · exact .inr ⟨rel, ⟨k, hk, hrel⟩, hx⟩
  have hfield : ∀ k : Constraint,
      (Relation.catalogObject ∈ k.relations ∨
        ∃ rel ∈ k.relations, Relation.catalogObject ∈ rel.ancestors) ∧
      ((Relation.bucket ∈ k.relations ∨ ∃ rel ∈ k.relations, Relation.bucket ∈ rel.ancestors) ↔
        k.field.toKind = .bucketId ∨ k.field.toKind = .bucketName) ∧
      ((Relation.metadataEntries ∈ k.relations ∨
        ∃ rel ∈ k.relations, Relation.metadataEntries ∈ rel.ancestors) ↔
        k.field.toKind = .metadata) := by
    rintro ⟨field, op, v⟩
    cases field <;> simp [Constraint.relations, Relation.ancestors, FieldId.toKind]
  refine ⟨?_, ?_, ?_⟩
  · rw [hmem]
    constructor
    · rintro ⟨k, hk, -⟩
      exact List.ne_nil_of_mem hk
    · intro h
      obtain ⟨k, hk⟩ := List.exists_mem_of_ne_nil cs h
      exact ⟨k, hk, (hfield k).1⟩
  · rw [hmem]
    exact exists_congr fun k => and_congr_right fun _ => (hfield k).2.1
  · rw [hmem]
    exact exists_congr fun k => and_congr_right fun _ => (hfield k).2.2

/-- A binding fits a revision for an expression when it has the joins the expression's
constraints need: the revision's own object, last committed at the revision's time, whenever the
expression has a constraint; the object's bucket whenever a constraint reads a bucket field; and
one of the revision's metadata entries whenever a constraint reads metadata. -/
structure Fits (e : Expression) (r : Revision) (x : Binding) : Prop where
  object : e.constraints ≠ [] →
    c.object? r.bucketId r.name = some x.object ∧ x.object.lastCommitTime = r.commitTime
  bucket : e.ReadsBucket → c.bucket? x.object.bucketId = some x.bucket
  entry : e.ReadsMetadata → x.entry ∈ r.metadata

/-- The revisions an expression selects: the expression holds of some binding that fits the
revision. -/
def Selects (e : Expression) (r : Revision) : Prop :=
  ∃ x : Binding, c.Fits e r x ∧ e.Holds x

/-- The row of a binding under the joins of compiled constraints shows the binding to each of
them. -/
theorem shows_ofBinding (cs : List Constraint) (r : Revision) (x : Binding) :
    ∀ k ∈ cs, (Row.ofBinding (JoinGraph.empty.joinAll (Constraint.relationsAll cs)).relations r
      x).Shows x k.field.toKind := by
  obtain ⟨hco, hbucket, hmeta⟩ := mem_relations_compiled cs
  intro k hk
  have hne : cs ≠ [] := List.ne_nil_of_mem hk
  obtain ⟨field, op, v⟩ := k
  cases field
  case bucketId | bucketName =>
    simp [Row.Shows, Row.ofBinding, FieldId.toKind, hbucket.2 ⟨_, hk, by simp [FieldId.toKind]⟩]
  case metadata key =>
    simp [Row.Shows, Row.ofBinding, FieldId.toKind, hmeta.2 ⟨_, hk, rfl⟩]
  all_goals simp [Row.Shows, Row.ofBinding, FieldId.toKind, hco.2 hne]

/-- Some row of a revision passes a compiled expression exactly when the expression selects it. -/
theorem any_rowsOf_iff {config : CompilerConfig} {R : Registry} (hR : R.LeafOnly) {e : Expression}
    {journal : Journal} {f : CompiledFilter} (hc : (compile config R (some e) journal).1 = .ok f)
    (r : Revision) : (c.rowsOf f.graph r).any f.predicate.holds = true ↔ c.Selects e r := by
  obtain ⟨hreal, hgraph, hadm⟩ := compile_realizes hR hc
  have hwf : f.graph.Wf := hgraph ▸ JoinGraph.wf_empty.joinAll _
  obtain ⟨hco, hbucket, hmeta⟩ := mem_relations_compiled e.constraints
  rw [← hgraph] at hco hbucket hmeta
  have hshows : ∀ x, ∀ k ∈ e.constraints,
      (Row.ofBinding f.graph.relations r x).Shows x k.field.toKind := by
    rw [hgraph]
    exact shows_ofBinding e.constraints r
  have hholds : ∀ x, f.predicate.holds (Row.ofBinding f.graph.relations r x) = true ↔ e.Holds x :=
    fun x => Specification.holds_iff R _ x f.spec e hreal fun k hk => ⟨hadm k hk, hshows x k hk⟩
  rw [List.any_eq_true]
  constructor
  · rintro ⟨t, ht, hp⟩
    obtain ⟨x, hx, rfl⟩ := (c.mem_rowsOf hwf r t).1 ht
    exact ⟨x, ⟨fun h => hx.1 (hco.2 h), fun h => hx.2.1 (hbucket.2 h), fun h => hx.2.2 (hmeta.2 h)⟩,
      (hholds x).1 hp⟩
  · rintro ⟨x, ⟨hobj, hb, hm⟩, hx⟩
    exact ⟨Row.ofBinding f.graph.relations r x, (c.mem_rowsOf hwf r _).2
      ⟨x, ⟨fun h => hobj (hco.1 h), fun h => hb (hbucket.1 h), fun h => hm (hmeta.1 h)⟩, rfl⟩,
      (hholds x).2 hx⟩

/-! ### Searching -/

section Search

variable {config : CompilerConfig} {R : Registry} {e : Expression} {journal : Journal}
  {f : CompiledFilter}

/-- The compiled predicate tests the expression's patterns, in reverse order. -/
theorem patterns_predicate_of_compile (hR : R.LeafOnly)
    (hc : (compile config R (some e) journal).1 = .ok f) :
    f.predicate.patterns = e.patterns.reverse := by
  rw [Predicate.patterns_eq, CompiledFilter.predicate,
    Specification.patternList_of_realizes _ _ (compile_realizes hR hc).1]
  rfl

/-- Reading all pages of a search gives the revisions some row of which passes the filter, in
sorted order, and counting counts them, when the revision ids are distinct, a word counts the
revisions, and the regex engine builds the regex of every pattern of the expression. -/
theorem allPages_eq_sorted (hR : R.LeafOnly) (hc : (compile config R (some e) journal).1 = .ok f)
    (hids : (c.revisions.map (·.id)).Nodup) (hfit : c.revisions.length < UInt64.size)
    {build : RegexBuild} (hbuild : build.BuildsAll e.patterns) (order : OrderBy) (size : UInt64) :
    ∃ record, c.allPages build f order size = .ok (c.sortRevisions order
        (c.revisions.filter fun r => (c.rowsOf f.graph r).any f.predicate.holds)) ∧
      c.count build f =
        .ok ((c.revisions.filter fun r => (c.rowsOf f.graph r).any f.predicate.holds).length,
          record) := by
  obtain ⟨-, hgraph, -⟩ := compile_realizes hR hc
  have hwf : f.graph.Wf := hgraph ▸ JoinGraph.wf_empty.joinAll _
  have hbuild' : build.BuildsAll f.predicate.patterns := by
    intro p hp
    rw [patterns_predicate_of_compile hR hc, List.mem_reverse] at hp
    exact hbuild p hp
  have hone : f.needsDistinct = false → ∀ r ∈ c.revisions, (c.rowsOf f.graph r).length ≤ 1 := by
    intro hd r _
    refine c.length_rowsOf_le (fun hm => ?_) r
    have h := (JoinGraph.needsDistinct_iff hwf).2 hm
    rw [CompiledFilter.needsDistinct] at hd
    rw [hd] at h
    cases h
  obtain ⟨record, hmatch⟩ := c.matching_eq build f hbuild' hids hone
  refine ⟨record, c.allPages_eq hmatch (Nat.lt_of_le_of_lt (List.length_filter_le _ _) hfit)
    order size, ?_⟩
  unfold count
  rw [hmatch]
  rfl

theorem mem_sorted_iff (hR : R.LeafOnly) (hc : (compile config R (some e) journal).1 = .ok f)
    (order : OrderBy) (r : Revision) :
    r ∈ c.sortRevisions order
        (c.revisions.filter fun r => (c.rowsOf f.graph r).any f.predicate.holds) ↔
      r ∈ c.revisions ∧ c.Selects e r := by
  rw [(c.sortRevisions_perm order _).mem_iff, List.mem_filter, c.any_rowsOf_iff hR hc r]

/-- Over all its pages, a search with a compiled expression lists every revision that the
expression selects, each once and nothing else, and counts as many. This holds under a registry
of built-in handlers, when the revision ids are distinct, a word counts the revisions, and the
regex engine builds the regex of every pattern of the expression. -/
theorem allPages_selected_once (config : CompilerConfig) (R : Registry) (hR : R.LeafOnly)
    (e : Expression) (journal : Journal) (f : CompiledFilter)
    (hc : (compile config R (some e) journal).1 = .ok f) (hids : (c.revisions.map (·.id)).Nodup)
    (hfit : c.revisions.length < UInt64.size) (build : RegexBuild)
    (hbuild : build.BuildsAll e.patterns) (order : OrderBy) (size : UInt64) :
    ∃ rows, c.allPages build f order size = .ok rows ∧ rows.Nodup ∧
      (∀ r, r ∈ rows ↔ r ∈ c.revisions ∧ c.Selects e r) ∧
      ∃ record, c.count build f = .ok (rows.length, record) := by
  obtain ⟨record, hpages, hcount⟩ := c.allPages_eq_sorted hR hc hids hfit hbuild order size
  have hperm := c.sortRevisions_perm order
    (c.revisions.filter fun r => (c.rowsOf f.graph r).any f.predicate.holds)
  refine ⟨_, hpages, ?_, c.mem_sorted_iff hR hc order, record, ?_⟩
  · exact hperm.nodup_iff.2 ((List.Nodup.of_map _ hids).filter _)
  · rw [hcount, hperm.length_eq]

end Search

/-- The search for objects named `other` in the sample catalog, with pages of two rows; it has
no pattern, so the engine is never asked to build one. -/
theorem allPages_selected_once_sample :
    Registry.standard.LeafOnly ∧
    (compile CompilerConfig.default Registry.standard
        (some (.constraint ⟨.objectName, .eq, .single (.text "other")⟩)) #[]).1 =
      .ok ⟨.leaf ⟨.objectName, .eq, .single (.text "other")⟩
        (.compare ⟨some ⟨0, .catalogObject⟩, .objectName⟩ .eq (.single (.text "other"))),
        ⟨[⟨0, .catalogObject⟩], false⟩⟩ ∧
    (Sample.catalog.1.revisions.map (·.id)).Nodup ∧
    Sample.catalog.1.revisions.length < UInt64.size ∧
    RegexBuild.BuildsAll (fun _ => .ok ())
      (Expression.constraint ⟨.objectName, .eq, .single (.text "other")⟩).patterns ∧
    ∃ rows, Sample.catalog.1.allPages (fun _ => .ok ())
        ⟨.leaf ⟨.objectName, .eq, .single (.text "other")⟩
          (.compare ⟨some ⟨0, .catalogObject⟩, .objectName⟩ .eq (.single (.text "other"))),
          ⟨[⟨0, .catalogObject⟩], false⟩⟩ .keyAsc 2 = .ok rows ∧ rows.Nodup ∧
      (∀ r, r ∈ rows ↔ r ∈ Sample.catalog.1.revisions ∧
        Sample.catalog.1.Selects (.constraint ⟨.objectName, .eq, .single (.text "other")⟩) r) ∧
      ∃ record, Sample.catalog.1.count (fun _ => .ok ())
        ⟨.leaf ⟨.objectName, .eq, .single (.text "other")⟩
          (.compare ⟨some ⟨0, .catalogObject⟩, .objectName⟩ .eq (.single (.text "other"))),
          ⟨[⟨0, .catalogObject⟩], false⟩⟩ = .ok (rows.length, record) := by
  have hc : (compile CompilerConfig.default Registry.standard
      (some (.constraint ⟨.objectName, .eq, .single (.text "other")⟩)) #[]).1 =
      .ok ⟨.leaf ⟨.objectName, .eq, .single (.text "other")⟩
        (.compare ⟨some ⟨0, .catalogObject⟩, .objectName⟩ .eq (.single (.text "other"))),
        ⟨[⟨0, .catalogObject⟩], false⟩⟩ := by
    rw [compile_some_eq]
    rfl
  have hids : (Sample.catalog.1.revisions.map (·.id)).Nodup := by decide
  have hfit : Sample.catalog.1.revisions.length < UInt64.size := by decide
  have hbuild : RegexBuild.BuildsAll (fun _ => .ok ())
      (Expression.constraint ⟨.objectName, .eq, .single (.text "other")⟩).patterns :=
    fun _ _ => rfl
  exact ⟨Registry.leafOnly_standard, hc, hids, hfit, hbuild,
    allPages_selected_once _ _ _ Registry.leafOnly_standard _ _ _ hc hids hfit _ hbuild .keyAsc 2⟩

theorem compile_objectName_notLike (p : String) :
    (compile CompilerConfig.default Registry.standard
        (some (.constraint ⟨.objectName, .notLike, .single (.text p)⟩)) #[]).1 =
      .ok ⟨.leaf ⟨.objectName, .notLike, .single (.text p)⟩
        (.compare ⟨some ⟨0, .catalogObject⟩, .objectName⟩ .notLike (.single (.text p))),
        ⟨[⟨0, .catalogObject⟩], false⟩⟩ := by
  rw [compile_some_eq]
  rfl

/-- A search whose pattern the regex engine refuses fails with the engine's error, whatever the
catalog. -/
theorem allPages_eq_error_of_refused {build : RegexBuild} {p msg : String}
    (hp : build (Like.toRegex p) = .error msg) (hR : R.LeafOnly) {config : CompilerConfig}
    {e : Expression} {journal : Journal} {f : CompiledFilter}
    (hc : (compile config R (some e) journal).1 = .ok f) (he : e.patterns = [p])
    (order : OrderBy) (size : UInt64) :
    c.allPages build f order size = .error (.invalidPattern msg) := by
  apply allPages_eq_error
  apply matching_eq_error
  rw [patterns_predicate_of_compile hR hc, he, List.reverse_singleton, List.forM,
    RegexBuild.pattern, hp]
  rfl

/-- The search for objects not named like 100000 underscores compiles, and the sample catalog's
revision ids are distinct, but the regex engine refuses the pattern's regex as over its size
limit, as the regex crate does, and the search fails. -/
theorem allPages_fails_on_oversized_pattern :
    ∃ f, (compile CompilerConfig.default Registry.standard
        (some (.constraint ⟨.objectName, .notLike,
          .single (.text (String.ofList (List.replicate 100000 '_')))⟩)) #[]).1 = .ok f ∧
      (Sample.catalog.1.revisions.map (·.id)).Nodup ∧
      Sample.catalog.1.allPages
          (fun _ => .error "Compiled regex exceeds size limit of 10485760 bytes.") f .keyAsc 50 =
        .error (.invalidPattern "Compiled regex exceeds size limit of 10485760 bytes.") := by
  refine ⟨_, compile_objectName_notLike _, by decide, ?_⟩
  refine Sample.catalog.1.allPages_eq_error_of_refused ?_ Registry.leafOnly_standard
    (compile_objectName_notLike _) rfl .keyAsc 50
  rfl

end Catalog

end CatalogQuery
