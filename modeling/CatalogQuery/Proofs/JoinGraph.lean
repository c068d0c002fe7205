import CatalogQuery.Filter.Join
import Mathlib.Data.List.Nodup
import Mathlib.Data.List.Induction

/-!
# The join graph invariant

A graph grown by `JoinGraph.join` from the empty graph keeps four facts (`JoinGraph.Wf`): each
relation is joined once, a join's id is its position, a relation comes after the one it is
reached through, and the distinct flag is set exactly when some joined relation fans out.

`JoinGraph.mem_relations_join` says what joining adds: the relation and the relations it is
reached through, and nothing else. `JoinGraph.get?_join` says the handle `join` returns is the
one the new graph holds for the relation.
-/

namespace CatalogQuery

/-- The relations joined to reach a relation: those it is reached through, then itself. -/
def Relation.path (r : Relation) : List Relation := r.ancestors ++ [r]

/-- Every relation of the list comes after the relation it is reached through. -/
def Relation.ParentsFirst (rs : List Relation) : Prop :=
  ∀ i (hi : i < rs.length) p, rs[i].parent = some p → p ∈ rs.take i

namespace JoinGraph

/-- The relations of the graph's joins, in creation order. -/
def relations (g : JoinGraph) : List Relation := g.joins.map (·.relation)

theorem get?_eq_none_iff (g : JoinGraph) (r : Relation) : g.get? r = none ↔ r ∉ g.relations := by
  simp [get?, relations]

theorem relations_append (g : JoinGraph) (r : Relation) :
    (g.append r).2.1.relations = g.relations ++ [r] := by
  simp [append, relations]

/-- The graph after joining each relation of `rs` in turn. -/
def joinAll (g : JoinGraph) (rs : List Relation) : JoinGraph := rs.foldl (fun g r => (g.join r).2.1) g

theorem joinAll_append (g : JoinGraph) (xs ys : List Relation) :
    g.joinAll (xs ++ ys) = (g.joinAll xs).joinAll ys :=
  List.foldl_append

/-- The invariant of a join graph grown by `join`. -/
structure Wf (g : JoinGraph) : Prop where
  nodup : g.relations.Nodup
  ids : ∀ i (hi : i < g.joins.length), g.joins[i].id = i
  parentsFirst : Relation.ParentsFirst g.relations
  distinct : g.needsDistinct = g.relations.any Relation.fansOut

theorem wf_empty : Wf empty where
  nodup := List.nodup_nil
  ids i hi := by simp [empty] at hi
  parentsFirst i hi := by simp [empty, relations] at hi
  distinct := rfl

theorem parentsFirst_append {rs : List Relation} {r : Relation} (hrs : Relation.ParentsFirst rs)
    (hr : ∀ p, r.parent = some p → p ∈ rs) : Relation.ParentsFirst (rs ++ [r]) := by
  intro i hi p hp
  simp only [List.length_append, List.length_singleton] at hi
  by_cases hlt : i < rs.length
  · rw [List.getElem_append_left hlt] at hp
    rw [List.take_append_of_le_length (Nat.le_of_lt hlt)]
    exact hrs i hlt p hp
  · have hi' : i = rs.length := by omega
    subst hi'
    simp only [List.getElem_append_right (Nat.le_refl _), Nat.sub_self,
      List.getElem_singleton] at hp
    simpa using hr p hp

theorem parentsFirst_of_append {rs : List Relation} {r : Relation}
    (h : Relation.ParentsFirst (rs ++ [r])) :
    Relation.ParentsFirst rs ∧ ∀ p, r.parent = some p → p ∈ rs := by
  constructor
  · intro i hi p hp
    have h' := h i (by simp; omega) p (by rw [List.getElem_append_left hi]; exact hp)
    rwa [List.take_append_of_le_length (Nat.le_of_lt hi)] at h'
  · intro p hp
    have h' := h rs.length (by simp) p (by simpa using hp)
    simpa using h'

theorem parent_mem_of_parentsFirst {rs : List Relation} (h : Relation.ParentsFirst rs)
    {r p : Relation} (hr : r ∈ rs) (hp : r.parent = some p) : p ∈ rs := by
  obtain ⟨i, hi, rfl⟩ := List.mem_iff_getElem.1 hr
  exact List.mem_of_mem_take (h i hi p hp)

theorem Wf.append {g : JoinGraph} {r : Relation} (hg : g.Wf) (hr : r ∉ g.relations)
    (hp : ∀ p, r.parent = some p → p ∈ g.relations) : (g.append r).2.1.Wf where
  nodup := by
    rw [relations_append]
    exact List.nodup_append.2 ⟨hg.nodup, List.nodup_singleton r,
      fun a ha b hb => by rw [List.mem_singleton.1 hb]; exact fun h => hr (h ▸ ha)⟩
  ids i hi := by
    simp only [JoinGraph.append, List.length_append, List.length_singleton] at hi ⊢
    by_cases hlt : i < g.joins.length
    · rw [List.getElem_append_left hlt]
      exact hg.ids i hlt
    · have hi' : i = g.joins.length := by omega
      subst hi'
      simp
  parentsFirst := by
    rw [relations_append]
    exact parentsFirst_append hg.parentsFirst hp
  distinct := by
    have h := relations_append g r
    simp only [JoinGraph.append] at h ⊢
    rw [h, List.any_append, hg.distinct]
    simp

/-! ### Joining a relation -/

theorem get?_append (g : JoinGraph) (r x : Relation) :
    (g.append r).2.1.get? x = (g.get? x).or (if r = x then some ⟨g.joins.length, r⟩ else none) := by
  simp only [append, get?, List.find?_append, List.find?_singleton, beq_iff_eq]

theorem join_of_get? {g : JoinGraph} {r : Relation} {h : JoinHandle} (hg : g.get? r = some h) :
    g.join r = (h, g, []) := by
  simp [join, hg]

theorem join_root {g : JoinGraph} {r : Relation} (hr : r.ancestors = []) (hg : g.get? r = none) :
    g.join r = g.append r := by
  simp [join, hg, hr]

theorem join_bucket {g : JoinGraph} (hg : g.get? .bucket = none) :
    (g.join .bucket).1 = ((g.ensure .catalogObject).1.append .bucket).1 ∧
      (g.join .bucket).2.1 = ((g.ensure .catalogObject).1.append .bucket).2.1 := by
  simp [join, hg, Relation.ancestors]

theorem ensure_eq (g : JoinGraph) (r : Relation) :
    (g.ensure r).1 = if g.get? r = none then (g.append r).2.1 else g := by
  unfold ensure
  cases g.get? r <;> rfl

theorem relations_ensure (g : JoinGraph) (r : Relation) :
    (g.ensure r).1.relations = if r ∈ g.relations then g.relations else g.relations ++ [r] := by
  rw [ensure_eq]
  by_cases h : r ∈ g.relations
  · have hn : g.get? r ≠ none := fun hn => (get?_eq_none_iff g r).1 hn h
    simp [hn, h]
  · have hn : g.get? r = none := (get?_eq_none_iff g r).2 h
    simp [hn, h, relations_append]

theorem mem_ancestors {r x : Relation} : x ∈ r.ancestors ↔ r.parent = some x := by
  cases r <;> simp [Relation.ancestors, Relation.parent, eq_comm]

theorem Wf.parent_mem {g : JoinGraph} (hg : g.Wf) {r p : Relation} (hr : r ∈ g.relations)
    (hp : r.parent = some p) : p ∈ g.relations :=
  parent_mem_of_parentsFirst hg.parentsFirst hr hp

theorem Wf.ensure {g : JoinGraph} {r : Relation} (hg : g.Wf)
    (hp : ∀ p, r.parent = some p → p ∈ g.relations) : (g.ensure r).1.Wf := by
  rw [ensure_eq]
  split
  · exact hg.append ((get?_eq_none_iff g r).1 ‹_›) hp
  · exact hg

theorem Wf.join {g : JoinGraph} (hg : g.Wf) (r : Relation) : (g.join r).2.1.Wf := by
  cases hget : g.get? r with
  | some h =>
    rw [join_of_get? hget]
    exact hg
  | none =>
    have hr := (get?_eq_none_iff g r).1 hget
    cases r with
    | catalogObject =>
      rw [join_root rfl hget]
      exact hg.append hr (by simp [Relation.parent])
    | metadataEntries =>
      rw [join_root rfl hget]
      exact hg.append hr (by simp [Relation.parent])
    | bucket =>
      rw [(join_bucket hget).2]
      have h₁ : (g.ensure .catalogObject).1.Wf := hg.ensure (by simp [Relation.parent])
      apply h₁.append
      · rw [relations_ensure]
        split <;> simp [hr]
      · intro p hp
        simp only [Relation.parent, Option.some.injEq] at hp
        subst hp
        rw [relations_ensure]
        split <;> simp_all

theorem mem_relations_join {g : JoinGraph} (hg : g.Wf) (r x : Relation) :
    x ∈ (g.join r).2.1.relations ↔ x ∈ g.relations ∨ x = r ∨ x ∈ r.ancestors := by
  rw [mem_ancestors]
  cases hget : g.get? r with
  | some h =>
    rw [join_of_get? hget]
    have hr : r ∈ g.relations := by
      by_contra hn
      rw [← get?_eq_none_iff] at hn
      simp [hn] at hget
    constructor
    · exact Or.inl
    · rintro (hx | rfl | hx)
      · exact hx
      · exact hr
      · exact hg.parent_mem hr hx
  | none =>
    cases r with
    | catalogObject =>
      rw [join_root rfl hget, relations_append]
      simp [Relation.parent]
    | metadataEntries =>
      rw [join_root rfl hget, relations_append]
      simp [Relation.parent]
    | bucket =>
      rw [(join_bucket hget).2, relations_append, relations_ensure]
      by_cases hco : Relation.catalogObject ∈ g.relations
      · simp only [hco, if_true, List.mem_append, List.mem_singleton, Relation.parent,
          Option.some.injEq]
        grind
      · simp only [hco, if_false, List.mem_append, List.mem_singleton, Relation.parent,
          Option.some.injEq]
        grind

theorem get?_join (g : JoinGraph) (r : Relation) :
    (g.join r).2.1.get? r = some (g.join r).1 := by
  cases hget : g.get? r with
  | some h => rw [join_of_get? hget]; exact hget
  | none =>
    cases r with
    | catalogObject => rw [join_root rfl hget, get?_append]; simp [hget, append]
    | metadataEntries => rw [join_root rfl hget, get?_append]; simp [hget, append]
    | bucket =>
      rw [(join_bucket hget).1, (join_bucket hget).2, get?_append, ensure_eq]
      split
      · rw [get?_append, hget]
        simp [append]
      · simp [hget, append]

theorem Wf.joinAll {g : JoinGraph} (hg : g.Wf) (rs : List Relation) : (g.joinAll rs).Wf := by
  induction rs generalizing g with
  | nil => exact hg
  | cons r rs ih => exact ih (hg.join r)

theorem mem_relations_joinAll {g : JoinGraph} (hg : g.Wf) (rs : List Relation) (x : Relation) :
    x ∈ (g.joinAll rs).relations ↔ x ∈ g.relations ∨ x ∈ rs ∨ ∃ r ∈ rs, x ∈ r.ancestors := by
  induction rs generalizing g with
  | nil => simp [joinAll]
  | cons r rs ih =>
    change x ∈ ((g.join r).2.1.joinAll rs).relations ↔ _
    rw [ih (hg.join r), mem_relations_join hg]
    simp only [List.mem_cons, or_and_right, exists_or, exists_eq_left]
    tauto

/-! ### The order of the joins -/

/-- Removing the members of a list is removing those of the list without its repeats. -/
theorem removeAll_eraseDups (xs ys : List Relation) : xs.removeAll ys.eraseDups = xs.removeAll ys := by
  simp only [List.removeAll, List.elem_eq_mem, List.mem_eraseDups]

/-- Joining a relation appends, in order, the relations on its path that the graph lacks. -/
theorem relations_join {g : JoinGraph} (hg : g.Wf) (r : Relation) :
    (g.join r).2.1.relations = g.relations ++ (r.path.removeAll g.relations).eraseDups := by
  cases hget : g.get? r with
  | some h =>
    rw [join_of_get? hget]
    have hr : r ∈ g.relations := by
      by_contra hn
      rw [← get?_eq_none_iff] at hn
      simp [hn] at hget
    have hpath : r.path.removeAll g.relations = [] := by
      simp only [List.removeAll, List.elem_eq_mem, List.filter_eq_nil_iff, Bool.not_eq_eq_eq_not,
        Bool.not_true, decide_eq_false_iff_not, not_not, Relation.path, List.mem_append,
        List.mem_singleton, mem_ancestors]
      rintro x (hx | rfl)
      · exact hg.parent_mem hr hx
      · exact hr
    rw [hpath]
    simp
  | none =>
    have hr := (get?_eq_none_iff g r).1 hget
    cases r with
    | catalogObject =>
      rw [join_root rfl hget, relations_append]
      simp [Relation.path, Relation.ancestors, List.removeAll, hr, List.eraseDups_cons]
    | metadataEntries =>
      rw [join_root rfl hget, relations_append]
      simp [Relation.path, Relation.ancestors, List.removeAll, hr, List.eraseDups_cons]
    | bucket =>
      rw [(join_bucket hget).2, relations_append, relations_ensure]
      by_cases hco : Relation.catalogObject ∈ g.relations
      · simp [Relation.path, Relation.ancestors, List.removeAll, hr, hco, List.eraseDups_cons]
      · simp [Relation.path, Relation.ancestors, List.removeAll, hr, hco, List.eraseDups_cons]

/-- From the empty graph, joining relations in turn joins their paths in order, each relation
at its first need. -/
theorem relations_joinAll_empty (rs : List Relation) :
    (empty.joinAll rs).relations = (rs.flatMap Relation.path).eraseDups := by
  induction rs using List.reverseRecOn with
  | nil => rfl
  | append_singleton rs r ih =>
    rw [joinAll_append]
    change ((empty.joinAll rs).join r).2.1.relations = _
    rw [relations_join (wf_empty.joinAll rs), ih, removeAll_eraseDups, List.flatMap_append,
      List.eraseDups_append]
    simp

end JoinGraph

end CatalogQuery
