import CatalogQuery.Proofs.Evaluation

/-!
# Searching with an OR of two expressions

The branches of an OR are compiled into one join graph, and every join of that graph is an inner
join: a revision comes out only if it has all the joins that either branch needs. So an OR of two
expressions is not the union of their searches. A revision that one branch selects is dropped when
it lacks a join the other branch brings: its object's bucket, for a branch that reads a bucket
field, or any metadata entry, for a branch that reads metadata.

`Catalog.selects_or_iff` says which revisions an OR of two expressions with constraints selects,
and `Catalog.allPages_or_pair` reads it off the searches of the two branches.
`Catalog.allPages_or_drops_other_branch` is the sample catalog's case: the object `other` has no
metadata, so `name = other OR metadata[project] = alpha` loses it.
-/

namespace CatalogQuery

namespace Expression

variable (a b : Expression)

@[simp]
theorem constraints_or_pair : (Expression.or [a, b]).constraints = a.constraints ++ b.constraints := by
  simp [constraints, constraintsAll]

theorem holds_or_pair (x : Binding) : (Expression.or [a, b]).Holds x ↔ a.Holds x ∨ b.Holds x := by
  simp [Holds, HoldsAny]

theorem readsBucket_or_pair : (Expression.or [a, b]).ReadsBucket ↔ a.ReadsBucket ∨ b.ReadsBucket := by
  simp only [ReadsBucket, constraints_or_pair, List.mem_append, or_and_right, exists_or]

theorem readsMetadata_or_pair :
    (Expression.or [a, b]).ReadsMetadata ↔ a.ReadsMetadata ∨ b.ReadsMetadata := by
  simp only [ReadsMetadata, constraints_or_pair, List.mem_append, or_and_right, exists_or]

theorem patterns_or_pair : (Expression.or [a, b]).patterns = a.patterns ++ b.patterns := by
  simp [patterns]

end Expression

namespace Sample

/-- The objects named `other`. -/
def namedOther : Expression := .constraint ⟨.objectName, .eq, .single (.text "other")⟩

/-- The revisions whose metadata gives the project `alpha`. -/
def projectAlpha : Expression := .constraint ⟨.metadata "project", .eq, .single (.text "alpha")⟩

theorem compile_namedOther_or_projectAlpha :
    ∃ fa fb f,
      (compile CompilerConfig.default Registry.standard (some namedOther) #[]).1 = .ok fa ∧
      (compile CompilerConfig.default Registry.standard (some projectAlpha) #[]).1 = .ok fb ∧
      (compile CompilerConfig.default Registry.standard
        (some (.or [namedOther, projectAlpha])) #[]).1 = .ok f := by
  simp only [compile_some_eq]
  exact ⟨_, _, _, rfl, rfl, rfl⟩

theorem ids_nodup : (catalog.1.revisions.map (·.id)).Nodup := by decide

end Sample

namespace Catalog

variable (c : Catalog)

/-- A revision passes the joins an expression brings beyond its object: the object's bucket
exists when the expression reads a bucket field, and the revision has a metadata entry when the
expression reads metadata. -/
def PassesJoins (e : Expression) (r : Revision) : Prop :=
  (e.ReadsBucket → ∃ o b, c.object? r.bucketId r.name = some o ∧ c.bucket? o.bucketId = some b) ∧
  (e.ReadsMetadata → r.metadata ≠ [])

/-- The binding of a revision that keeps the object of `x`, takes the object's bucket where there
is one, and keeps the entry of `x` where it is one of the revision's, else takes the revision's
first entry. -/
def rebind (r : Revision) (x : Binding) : Binding where
  object := x.object
  bucket := (c.bucket? x.object.bucketId).getD x.bucket
  entry := if x.entry ∈ r.metadata then x.entry else r.metadata.headD x.entry

variable {c} {a b e : Expression} {r : Revision} {x : Binding}

theorem Fits.passesJoins (hx : c.Fits e r x) (he : e.constraints ≠ []) : c.PassesJoins e r :=
  ⟨fun h => ⟨x.object, x.bucket, (hx.object he).1, hx.bucket h⟩,
    fun h => List.ne_nil_of_mem (hx.entry h)⟩

theorem fits_or_iff (ha : a.constraints ≠ []) :
    c.Fits (.or [a, b]) r x ↔ c.Fits a r x ∧ c.Fits b r x := by
  have hne : (Expression.or [a, b]).constraints ≠ [] := by simp [ha]
  constructor
  · intro h
    have hbucket := fun hr => h.bucket ((Expression.readsBucket_or_pair a b).2 hr)
    have hentry := fun hr => h.entry ((Expression.readsMetadata_or_pair a b).2 hr)
    exact ⟨⟨fun _ => h.object hne, fun hr => hbucket (.inl hr), fun hr => hentry (.inl hr)⟩,
      ⟨fun _ => h.object hne, fun hr => hbucket (.inr hr), fun hr => hentry (.inr hr)⟩⟩
  · rintro ⟨hxa, hxb⟩
    refine ⟨fun _ => hxa.object ha, fun hr => ?_, fun hr => ?_⟩
    · exact ((Expression.readsBucket_or_pair a b).1 hr).elim hxa.bucket hxb.bucket
    · exact ((Expression.readsMetadata_or_pair a b).1 hr).elim hxa.entry hxb.entry

theorem agree_rebind (hx : c.Fits e r x) :
    ∀ k ∈ e.constraints, x.Agree (c.rebind r x) k.field.toKind := by
  intro k hk
  cases hkind : k.field.toKind with
  | bucketId => simp [Binding.Agree, rebind, hx.bucket ⟨k, hk, .inl hkind⟩]
  | bucketName => simp [Binding.Agree, rebind, hx.bucket ⟨k, hk, .inr hkind⟩]
  | metadata => simp [Binding.Agree, rebind, hx.entry ⟨k, hk, hkind⟩]
  | objectName | kind | contentType => rfl

/-- Rebinding a binding that fits an expression with constraints gives one that fits every
expression whose joins the revision passes. -/
theorem fits_rebind (hx : c.Fits a r x) (ha : a.constraints ≠ []) (he : c.PassesJoins e r) :
    c.Fits e r (c.rebind r x) := by
  have hobj := hx.object ha
  refine ⟨fun _ => hobj, fun hr => ?_, fun hr => ?_⟩
  · -- the bucket that `e` needs belongs to the object that `x` already has
    obtain ⟨o, bk, ho, hbk⟩ := he.1 hr
    have hox : o = x.object := Option.some.inj (ho.symm.trans hobj.1)
    subst hox
    simp [rebind, hbk]
  · obtain ⟨m, ms, hm⟩ := List.exists_cons_of_ne_nil (he.2 hr)
    dsimp only [rebind]
    by_cases hmem : x.entry ∈ r.metadata
    · rw [if_pos hmem]
      exact hmem
    · rw [if_neg hmem, hm]
      simp

/-- A revision selected by one expression with constraints is selected by its OR with a second
one exactly when it passes the second one's joins. -/
theorem selects_or_of_selects (ha : a.constraints ≠ []) (hb : b.constraints ≠ [])
    (hsel : c.Selects a r) (hpass : c.PassesJoins b r) :
    c.Selects (.or [a, b]) r ∧ c.Selects (.or [b, a]) r := by
  obtain ⟨x, hx, hxa⟩ := hsel
  have hfa : c.Fits a r (c.rebind r x) := fits_rebind hx ha (hx.passesJoins ha)
  have hfb : c.Fits b r (c.rebind r x) := fits_rebind hx ha hpass
  have hxa' : a.Holds (c.rebind r x) := (Expression.holds_congr_of_agree (agree_rebind hx)).1 hxa
  exact ⟨⟨_, (fits_or_iff ha).2 ⟨hfa, hfb⟩, (Expression.holds_or_pair a b _).2 (.inl hxa')⟩,
    ⟨_, (fits_or_iff hb).2 ⟨hfb, hfa⟩, (Expression.holds_or_pair b a _).2 (.inr hxa')⟩⟩

/-- An OR of two expressions with constraints selects the revisions that one of them selects
and that pass the other one's joins. -/
theorem selects_or_iff (ha : a.constraints ≠ []) (hb : b.constraints ≠ []) :
    c.Selects (.or [a, b]) r ↔
      (c.Selects a r ∧ c.PassesJoins b r) ∨ (c.Selects b r ∧ c.PassesJoins a r) := by
  constructor
  · rintro ⟨x, hx, hor⟩
    obtain ⟨hfa, hfb⟩ := (fits_or_iff ha).1 hx
    rcases (Expression.holds_or_pair a b x).1 hor with hxa | hxb
    · exact .inl ⟨⟨x, hfa, hxa⟩, hfb.passesJoins hb⟩
    · exact .inr ⟨⟨x, hfb, hxb⟩, hfa.passesJoins ha⟩
  · rintro (⟨hsel, hpass⟩ | ⟨hsel, hpass⟩)
    · exact (selects_or_of_selects ha hb hsel hpass).1
    · exact (selects_or_of_selects hb ha hsel hpass).2

variable (c)

/-- Over all its pages, the search for an OR of two expressions with constraints lists the
revisions that the search for one of them lists and that pass the other one's joins, and counts
as many. This holds when the three compile under a registry of built-in handlers, the revision ids
are distinct, a word counts the revisions, and the regex engine builds the regex of every
pattern. -/
theorem allPages_or_pair {config : CompilerConfig} {R : Registry} (hR : R.LeafOnly)
    {journal : Journal} {fa fb f : CompiledFilter}
    (hca : (compile config R (some a) journal).1 = .ok fa)
    (hcb : (compile config R (some b) journal).1 = .ok fb)
    (hc : (compile config R (some (.or [a, b])) journal).1 = .ok f)
    (ha : a.constraints ≠ []) (hb : b.constraints ≠ [])
    (hids : (c.revisions.map (·.id)).Nodup) (hfit : c.revisions.length < UInt64.size)
    {build : RegexBuild} (hba : build.BuildsAll a.patterns) (hbb : build.BuildsAll b.patterns)
    (order : OrderBy) (size : UInt64) :
    ∃ rowsA rowsB rows, c.allPages build fa order size = .ok rowsA ∧
      c.allPages build fb order size = .ok rowsB ∧ c.allPages build f order size = .ok rows ∧
      (∀ r, r ∈ rows ↔ (r ∈ rowsA ∧ c.PassesJoins b r) ∨ (r ∈ rowsB ∧ c.PassesJoins a r)) ∧
      ∃ record, c.count build f = .ok (rows.length, record) := by
  have hbuild : build.BuildsAll (Expression.or [a, b]).patterns := by
    intro p hp
    rw [Expression.patterns_or_pair, List.mem_append] at hp
    exact hp.elim (hba p) (hbb p)
  obtain ⟨-, hpagesA, -⟩ := c.allPages_eq_sorted hR hca hids hfit hba order size
  obtain ⟨-, hpagesB, -⟩ := c.allPages_eq_sorted hR hcb hids hfit hbb order size
  obtain ⟨record, hpages, hcount⟩ := c.allPages_eq_sorted hR hc hids hfit hbuild order size
  refine ⟨_, _, _, hpagesA, hpagesB, hpages, fun r => ?_, record, ?_⟩
  · rw [c.mem_sorted_iff hR hc, c.mem_sorted_iff hR hca, c.mem_sorted_iff hR hcb,
      selects_or_iff ha hb, and_or_left, and_assoc, and_assoc]
  · rw [hcount, (c.sortRevisions_perm order _).length_eq]

/-- The OR of `name = other` and `metadata[project] = alpha` on the sample catalog; neither has a
pattern, so the engine is never asked to build one. -/
theorem allPages_or_pair_sample :
    Registry.standard.LeafOnly ∧
    ∃ fa fb f,
      (compile CompilerConfig.default Registry.standard (some Sample.namedOther) #[]).1 = .ok fa ∧
      (compile CompilerConfig.default Registry.standard (some Sample.projectAlpha) #[]).1 = .ok fb ∧
      (compile CompilerConfig.default Registry.standard
        (some (.or [Sample.namedOther, Sample.projectAlpha])) #[]).1 = .ok f ∧
      Sample.namedOther.constraints ≠ [] ∧ Sample.projectAlpha.constraints ≠ [] ∧
      (Sample.catalog.1.revisions.map (·.id)).Nodup ∧
      Sample.catalog.1.revisions.length < UInt64.size ∧
      RegexBuild.BuildsAll (fun _ => .ok ()) Sample.namedOther.patterns ∧
      RegexBuild.BuildsAll (fun _ => .ok ()) Sample.projectAlpha.patterns ∧
      ∃ rowsA rowsB rows, Sample.catalog.1.allPages (fun _ => .ok ()) fa .keyAsc 50 = .ok rowsA ∧
        Sample.catalog.1.allPages (fun _ => .ok ()) fb .keyAsc 50 = .ok rowsB ∧
        Sample.catalog.1.allPages (fun _ => .ok ()) f .keyAsc 50 = .ok rows ∧
        (∀ r, r ∈ rows ↔ (r ∈ rowsA ∧ Sample.catalog.1.PassesJoins Sample.projectAlpha r) ∨
          (r ∈ rowsB ∧ Sample.catalog.1.PassesJoins Sample.namedOther r)) ∧
        ∃ record, Sample.catalog.1.count (fun _ => .ok ()) f = .ok (rows.length, record) := by
  obtain ⟨fa, fb, f, hca, hcb, hc⟩ := Sample.compile_namedOther_or_projectAlpha
  have ha : Sample.namedOther.constraints ≠ [] := by simp [Sample.namedOther, Expression.constraints]
  have hb : Sample.projectAlpha.constraints ≠ [] := by
    simp [Sample.projectAlpha, Expression.constraints]
  have hba : RegexBuild.BuildsAll (fun _ => .ok ()) Sample.namedOther.patterns := fun _ _ => rfl
  have hbb : RegexBuild.BuildsAll (fun _ => .ok ()) Sample.projectAlpha.patterns := fun _ _ => rfl
  have hfit : Sample.catalog.1.revisions.length < UInt64.size := by decide
  exact ⟨Registry.leafOnly_standard, fa, fb, f, hca, hcb, hc, ha, hb, Sample.ids_nodup, hfit, hba,
    hbb, allPages_or_pair _ Registry.leafOnly_standard hca hcb hc ha hb Sample.ids_nodup hfit hba
      hbb .keyAsc 50⟩

/-- In the sample catalog, `name = other OR metadata[project] = alpha` misses the object `other`,
which `name = other` alone finds: the OR joins the metadata entries, and `other` has none. -/
theorem allPages_or_drops_other_branch :
    ∃ fa fb f rowsA rowsB rows,
      (compile CompilerConfig.default Registry.standard (some Sample.namedOther) #[]).1 = .ok fa ∧
      (compile CompilerConfig.default Registry.standard (some Sample.projectAlpha) #[]).1 = .ok fb ∧
      (compile CompilerConfig.default Registry.standard
        (some (.or [Sample.namedOther, Sample.projectAlpha])) #[]).1 = .ok f ∧
      (Sample.catalog.1.revisions.map (·.id)).Nodup ∧
      Sample.catalog.1.allPages (fun _ => .ok ()) fa .keyAsc 50 = .ok rowsA ∧
      Sample.catalog.1.allPages (fun _ => .ok ()) fb .keyAsc 50 = .ok rowsB ∧
      Sample.catalog.1.allPages (fun _ => .ok ()) f .keyAsc 50 = .ok rows ∧
      (⟨6, 2, "other", 130, "commit other at 130", []⟩ : Revision) ∈ rowsA ∧
      (⟨6, 2, "other", 130, "commit other at 130", []⟩ : Revision) ∉ rows := by
  obtain ⟨fa, fb, f, hca, hcb, hc⟩ := Sample.compile_namedOther_or_projectAlpha
  have hfit : Sample.catalog.1.revisions.length < UInt64.size := by decide
  have hbuild : ∀ e : Expression, RegexBuild.BuildsAll (fun _ => .ok ()) e.patterns :=
    fun _ _ _ => rfl
  obtain ⟨-, hpagesA, -⟩ := Sample.catalog.1.allPages_eq_sorted Registry.leafOnly_standard hca
    Sample.ids_nodup hfit (hbuild _) .keyAsc 50
  obtain ⟨-, hpagesB, -⟩ := Sample.catalog.1.allPages_eq_sorted Registry.leafOnly_standard hcb
    Sample.ids_nodup hfit (hbuild _) .keyAsc 50
  obtain ⟨-, hpages, -⟩ := Sample.catalog.1.allPages_eq_sorted Registry.leafOnly_standard hc
    Sample.ids_nodup hfit (hbuild _) .keyAsc 50
  have hmeta : Sample.projectAlpha.ReadsMetadata := ⟨_, List.mem_singleton_self _, rfl⟩
  refine ⟨fa, fb, f, _, _, _, hca, hcb, hc, Sample.ids_nodup, hpagesA, hpagesB, hpages, ?_, ?_⟩
  · rw [Sample.catalog.1.mem_sorted_iff Registry.leafOnly_standard hca]
    refine ⟨by decide, ⟨⟨2, "other", "calendar", "application/json", 130⟩, ⟨2, "bucket2", "user"⟩,
      ⟨"", ""⟩⟩, ⟨fun _ => by decide, fun _ => by decide, fun h => ?_⟩, ?_⟩
    · obtain ⟨k, hk, hkind⟩ := h
      simp only [Sample.namedOther, Expression.constraints, List.mem_singleton] at hk
      subst hk
      cases hkind
    · simp [Sample.namedOther, Expression.Holds, Constraint.Holds, Binding.read, Scalar.Sat]
  · -- the OR needs a metadata entry, which `other` lacks
    rw [Sample.catalog.1.mem_sorted_iff Registry.leafOnly_standard hc, selects_or_iff
      (by simp [Sample.namedOther, Expression.constraints])
      (by simp [Sample.projectAlpha, Expression.constraints])]
    rintro ⟨-, ⟨-, hpass⟩ | ⟨⟨x, hx, -⟩, -⟩⟩
    · exact hpass.2 hmeta rfl
    · exact List.not_mem_nil (hx.entry hmeta)

end Catalog

end CatalogQuery
