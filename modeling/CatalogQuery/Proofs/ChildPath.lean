import CatalogQuery.Proofs.Semantics
import CatalogQuery.Filter.Sample

/-!
# Navigating a compiled specification by child index

The specification compiled from an expression is a function of the expression and of the join
graph the compilation ends with: each leaf tests its constraint's leaf predicate over that graph
(`compile_spec_eq`). A leaf's predicate reads only the joins of its own relations, and the leaves
after it only append joins (`JoinGraph.Extends`).

A path of child indices addresses a node of an expression when each index is at least 0 and
below the child count of the node reached so far; a constraint has no children
(`Expression.subAt`). Following `Specification.child` along a path from a compiled specification
reaches the specification of the node the path addresses; on any other path it fails at the
first index out of range, with that index and the child count of the node it was applied to
(`childPath_follows_expression`).
-/

namespace CatalogQuery

/-! ### Graphs that only grow -/

namespace JoinGraph

/-- A graph extends another when it starts with the other's joins. -/
def Extends (G g : JoinGraph) : Prop := g.joins <+: G.joins

theorem Extends.refl (g : JoinGraph) : g.Extends g := List.prefix_refl _

theorem Extends.trans {G g g₀ : JoinGraph} (h₁ : G.Extends g) (h₂ : g.Extends g₀) :
    G.Extends g₀ :=
  List.IsPrefix.trans h₂ h₁

theorem extends_append (g : JoinGraph) (r : Relation) : (g.append r).2.1.Extends g :=
  List.prefix_append _ _

theorem extends_ensure (g : JoinGraph) (r : Relation) : (g.ensure r).1.Extends g := by
  rw [ensure_eq]
  split
  · exact extends_append g r
  · exact Extends.refl g

theorem extends_join (g : JoinGraph) (r : Relation) : (g.join r).2.1.Extends g := by
  cases hget : g.get? r with
  | some h =>
    rw [join_of_get? hget]
    exact Extends.refl g
  | none =>
    cases r with
    | catalogObject =>
      rw [join_root rfl hget]
      exact extends_append g _
    | metadataEntries =>
      rw [join_root rfl hget]
      exact extends_append g _
    | bucket =>
      rw [(join_bucket hget).2]
      exact (extends_append _ _).trans (extends_ensure g _)

theorem extends_joinAll (g : JoinGraph) (rs : List Relation) : (g.joinAll rs).Extends g := by
  induction rs generalizing g with
  | nil => exact Extends.refl g
  | cons r rs ih => exact (ih (g.join r).2.1).trans (extends_join g r)

theorem Extends.get?_eq {G g : JoinGraph} (hG : G.Extends g) {r : Relation}
    (h : (g.get? r).isSome) : G.get? r = g.get? r := by
  obtain ⟨t, ht⟩ := hG
  obtain ⟨x, hx⟩ := Option.isSome_iff_exists.1 h
  unfold get? at hx ⊢
  rw [← ht, List.find?_append, hx]
  rfl

theorem isSome_get?_joinAll (g : JoinGraph) {rs : List Relation} {r : Relation} (hr : r ∈ rs) :
    ((g.joinAll rs).get? r).isSome := by
  induction rs generalizing g with
  | nil => cases hr
  | cons r' rs ih =>
    change (((g.join r').2.1.joinAll rs).get? r).isSome
    rcases List.mem_cons.1 hr with rfl | hr
    · have hjoin : ((g.join r).2.1.get? r).isSome := by
        rw [get?_join]
        rfl
      rw [(extends_joinAll _ rs).get?_eq hjoin]
      exact hjoin
    · exact ih _ hr

end JoinGraph

/-- A leaf's predicate reads only the joins of the leaf's relations: over an extension of a graph
that has them it is the same predicate. -/
theorem Constraint.leafPredicate_extends {c : Constraint} {G g : JoinGraph} (hG : G.Extends g)
    (h : ∀ r ∈ c.relations, (g.get? r).isSome) : c.leafPredicate G = c.leafPredicate g := by
  obtain ⟨field, op, v⟩ := c
  cases field
  case metadata key =>
    simp only [leafPredicate, hG.get?_eq (h .metadataEntries (by simp [relations]))]
  all_goals
    simp only [leafPredicate, FieldId.toKind, FieldKind.attribute, Attribute.owner,
      Option.bind_some]
    rw [hG.get?_eq (h _ (by simp [relations]))]

/-! ### The compiled specification -/

namespace Expression

mutual

/-- The specification of an expression whose leaves read the joins of `g`: a constraint becomes a
leaf with its leaf predicate over `g`, a group the group of its children's specifications. -/
def specOver (g : JoinGraph) : Expression → Specification
  | .constraint c => .leaf c (c.leafPredicate g)
  | .and es => .and (specOverAll g es)
  | .or es => .or (specOverAll g es)

/-- The specifications of a list of expressions over `g`, in order. -/
def specOverAll (g : JoinGraph) : List Expression → List Specification
  | [] => []
  | e :: es => specOver g e :: specOverAll g es

end

theorem specOverAll_eq_map (g : JoinGraph) (es : List Expression) :
    specOverAll g es = es.map (specOver g) := by
  induction es with
  | nil => rfl
  | cons e es ih => simp [specOverAll, ih]

end Expression

namespace Registry

variable (r : Registry) (limit : Nat)

mutual

/-- A successful compilation yields the specification of the expression over any graph that
extends the graph it ends with. -/
theorem compileRec_specOver (hR : r.LeafOnly) (d : Nat) :
    ∀ (e : Expression) (b b' : Build) (s : Specification),
      (r.compileRec limit d e).run.run b = (.ok s, b') →
      ∀ G : JoinGraph, G.Extends b'.graph → s = e.specOver G
  | .constraint c, b, b', s, h, G, hG => by
    obtain ⟨-, rfl, hg⟩ := r.compileRec_constraint_ok limit hR h
    rw [hg] at hG
    rw [Expression.specOver, Constraint.leafPredicate_extends hG fun rel hrel =>
      JoinGraph.isSome_get?_joinAll _ hrel]
  | .and cs, b, b', s, h, G, hG => by
    obtain ⟨-, b₁, ss, -, hx, rfl⟩ := r.compileRec_group_ok limit .and rfl h
    rw [compileRecAll_specOver hR (d + 1) cs b₁ b' ss hx G hG]
    rfl
  | .or cs, b, b', s, h, G, hG => by
    obtain ⟨-, b₁, ss, -, hx, rfl⟩ := r.compileRec_group_ok limit .or rfl h
    rw [compileRecAll_specOver hR (d + 1) cs b₁ b' ss hx G hG]
    rfl

theorem compileRecAll_specOver (hR : r.LeafOnly) (d : Nat) :
    ∀ (es : List Expression) (b b' : Build) (ss : List Specification),
      (r.compileRecAll limit d es).run.run b = (.ok ss, b') →
      ∀ G : JoinGraph, G.Extends b'.graph → ss = Expression.specOverAll G es
  | [], b, b', ss, h, G, hG => by
    cases h
    rfl
  | e :: es, b, b', ss, h, G, hG => by
    obtain ⟨s, ss', b₁, hx, hy, rfl⟩ := r.compileRecAll_cons_ok limit h
    have hb : b'.graph.Extends b₁.graph := by
      rw [(r.compileRecAll_realizes limit hR d es b₁ b' ss' hy).2.1]
      exact JoinGraph.extends_joinAll _ _
    rw [compileRec_specOver hR d e b b₁ s hx G (hG.trans hb),
      compileRecAll_specOver hR d es b₁ b' ss' hy G hG]
    rfl

end

end Registry

/-- A compiled filter's specification is its expression's specification over the filter's joins. -/
theorem compile_spec_eq {config : CompilerConfig} {R : Registry} (hR : R.LeafOnly) {e : Expression}
    {journal : Journal} {f : CompiledFilter} (hc : (compile config R (some e) journal).1 = .ok f) :
    f.spec = e.specOver f.graph := by
  rw [compile_some_eq] at hc
  rcases hx : (R.compileRec config.maxDepth 1 e).run.run ⟨JoinGraph.empty, journal⟩ with
    ⟨err | s, b⟩
  · rw [hx] at hc
    cases hc
  · rw [hx] at hc
    cases hc
    exact R.compileRec_specOver config.maxDepth hR 1 e _ b s hx b.graph (JoinGraph.Extends.refl _)

/-! ### Paths of child indices -/

namespace Expression

/-- The children of a node, in order; a constraint has none. -/
def children : Expression → List Expression
  | .constraint _ => []
  | .and cs | .or cs => cs

/-- The node that a path of child indices addresses: each index must be at least 0 and below the
child count of the node reached so far. -/
def subAt : Expression → List Int → Option Expression
  | e, [] => some e
  | e, j :: js =>
    if h : 0 ≤ j ∧ j < e.children.length then (e.children.get ⟨j.toNat, by omega⟩).subAt js
    else none

end Expression

namespace Specification

/-- Follows `child` along a path of indices, stopping at the first error. -/
def childPath : Specification → List Int → Except FilterError Specification
  | s, [] => .ok s
  | s, j :: js => s.child j >>= fun s' => s'.childPath js

theorem children_specOver (g : JoinGraph) (e : Expression) :
    (e.specOver g).children = e.children.map (·.specOver g) := by
  cases e <;>
    simp [Expression.specOver, children, Expression.children, Expression.specOverAll_eq_map]

theorem child_specOver (g : JoinGraph) (e : Expression) (j : Int) :
    (e.specOver g).child j =
      if h : 0 ≤ j ∧ j < e.children.length then
        .ok ((e.children.get ⟨j.toNat, by omega⟩).specOver g)
      else .error (.childIndexOutOfBounds j e.children.length) := by
  rw [child, childAt, children_specOver, List.length_map]
  by_cases hj : 0 ≤ j ∧ j < e.children.length
  · have hlt : j.toNat < e.children.length := by omega
    rw [dif_pos hj, if_neg (by omega), List.getElem?_map, List.getElem?_eq_getElem hlt]
    rfl
  · rw [dif_neg hj]
    by_cases hneg : j < 0
    · rw [if_pos hneg]
    · have hnone : (e.children.map (·.specOver g))[j.toNat]? = none :=
        List.getElem?_eq_none (by simp only [List.length_map]; omega)
      rw [if_neg hneg, hnone]

/-- Following a path from the specification of an expression reaches the specification of the
node the path addresses, and on any other path fails at the first index out of range. -/
theorem childPath_specOver (g : JoinGraph) (e : Expression) (path : List Int) :
    (∀ e', e.subAt path = some e' → (e.specOver g).childPath path = .ok (e'.specOver g)) ∧
    (e.subAt path = none → ∃ (pre : List Int) (j : Int) (rest : List Int) (e' : Expression),
      path = pre ++ j :: rest ∧ e.subAt pre = some e' ∧
      ¬ (0 ≤ j ∧ j < e'.children.length) ∧
      (e.specOver g).childPath path = .error (.childIndexOutOfBounds j e'.children.length)) := by
  -- by induction on the path, from the node its first index picks
  induction path generalizing e with
  | nil =>
    refine ⟨fun e' h => ?_, fun h => ?_⟩
    · simp only [Expression.subAt, Option.some.injEq] at h
      subst h
      rfl
    · simp [Expression.subAt] at h
  | cons j js ih =>
    by_cases hj : 0 ≤ j ∧ j < e.children.length
    · obtain ⟨hok, herr⟩ := ih (e.children.get ⟨j.toNat, by omega⟩)
      have hsub : e.subAt (j :: js) = (e.children.get ⟨j.toNat, by omega⟩).subAt js := by
        rw [Expression.subAt, dif_pos hj]
      have hpath : (e.specOver g).childPath (j :: js) =
          ((e.children.get ⟨j.toNat, by omega⟩).specOver g).childPath js := by
        rw [childPath, child_specOver, dif_pos hj]
        rfl
      refine ⟨fun e' h => ?_, fun h => ?_⟩
      · rw [hpath]
        exact hok e' (by rw [← hsub]; exact h)
      · obtain ⟨pre, j', rest, e', hjs, hpre, hout, hres⟩ := herr (by rw [← hsub]; exact h)
        refine ⟨j :: pre, j', rest, e', by rw [hjs]; rfl, ?_, hout, ?_⟩
        · rw [Expression.subAt, dif_pos hj]
          exact hpre
        · rw [hpath]
          exact hres
    · -- the first index is out of range
      have hsub : e.subAt (j :: js) = none := by
        rw [Expression.subAt, dif_neg hj]
      refine ⟨fun e' h => ?_, fun _ => ⟨[], j, js, e, rfl, rfl, hj, ?_⟩⟩
      · rw [hsub] at h
        cases h
      · rw [childPath, child_specOver, dif_neg hj]
        rfl

-- In the nested sample the second child has two children: a negative index and the index past
-- the end both fail there, naming that count.
example (g : JoinGraph) :
    (Sample.nestedExpression.specOver g).childPath [1, -1] =
        .error (.childIndexOutOfBounds (-1) 2) ∧
      (Sample.nestedExpression.specOver g).childPath [1, 2] =
        .error (.childIndexOutOfBounds 2 2) :=
  ⟨rfl, rfl⟩

end Specification

/-- Following child indices from a compiled specification succeeds exactly on the paths that
address a node of the expression, and reaches that node's specification over the filter's joins.
On any other path it fails at the first index out of range, negative or past the end, with that
index and the child count of the node it was applied to. The default specification has no
children, and AND and OR nodes look up their children by index as every node does. -/
theorem childPath_follows_expression (config : CompilerConfig) (R : Registry) (hR : R.LeafOnly)
    (e : Expression) (journal : Journal) (f : CompiledFilter)
    (hc : (compile config R (some e) journal).1 = .ok f) (path : List Int) :
    ((∃ s, f.spec.childPath path = .ok s) ↔ (e.subAt path).isSome) ∧
    (∀ e', e.subAt path = some e' → f.spec.childPath path = .ok (e'.specOver f.graph)) ∧
    (e.subAt path = none → ∃ (pre : List Int) (j : Int) (rest : List Int) (e' : Expression),
      path = pre ++ j :: rest ∧ e.subAt pre = some e' ∧
      ¬ (0 ≤ j ∧ j < e'.children.length) ∧
      f.spec.childPath path = .error (.childIndexOutOfBounds j e'.children.length)) ∧
    (∀ j, Specification.default.child j = .error (.childIndexOutOfBounds j 0)) ∧
    ∀ cs j, (Specification.and cs).child j = Specification.childAt cs j ∧
      (Specification.or cs).child j = Specification.childAt cs j := by
  obtain ⟨hok, herr⟩ := Specification.childPath_specOver f.graph e path
  rw [compile_spec_eq hR hc]
  refine ⟨⟨fun ⟨s, hs⟩ => ?_, fun h => ?_⟩, hok, herr, fun j => ?_, fun cs j => ⟨rfl, rfl⟩⟩
  · cases hsub : e.subAt path with
    | some e' => rfl
    | none =>
      obtain ⟨_, _, _, _, _, _, _, hres⟩ := herr hsub
      rw [hres] at hs
      cases hs
  · obtain ⟨e', he'⟩ := Option.isSome_iff_exists.1 h
    exact ⟨_, hok e' he'⟩
  · by_cases hneg : j < 0 <;> simp [Specification.child, Specification.childAt,
      Specification.children, hneg]

/-- In the nested sample, the path `1, 1, 0` leads to the constraint `name eq name2`. -/
theorem childPath_nested_sample :
    ∃ f, (compile CompilerConfig.default Registry.standard (some Sample.nestedExpression) #[]).1 =
        .ok f ∧
      f.spec.childPath [1, 1, 0] = .ok ((Sample.equals .objectName "name2").specOver f.graph) := by
  obtain ⟨f, hc⟩ : ∃ f, (compile CompilerConfig.default Registry.standard
      (some Sample.nestedExpression) #[]).1 = .ok f := by
    rw [compile_some_eq]
    exact ⟨_, rfl⟩
  exact ⟨f, hc, (childPath_follows_expression _ _ Registry.leafOnly_standard _ _ f hc
    [1, 1, 0]).2.1 _ rfl⟩

end CatalogQuery
