import CatalogQuery.Proofs.Disjunction

/-!
# Complementary operators split the revisions a constraint reaches

Each operator has a complement that holds of a value exactly when the operator fails: `eq` and
`ne`, `gt` and `lte`, `lt` and `gte`, `like` and `notLike`, `in` and `notIn`
(`Operator.complement`, `Scalar.sat_complement_iff`). The checks of a constraint read only its
field, its value and the kind of its operator, so a constraint that compiles still compiles with
its operator swapped for the complement.

A revision reaches the joins of a constraint when it is the latest revision of an existing
object, whose bucket exists if the constraint reads a bucket field, and when it has an entry of
the constraint's key if the constraint reads metadata (`Catalog.Reaches`). Searching with a
constraint and with its complement finds every such revision once or twice and no other; only a
metadata constraint finds a revision twice, when the revision has two entries of its key
(`Catalog.allPages_complement_split`). This needs the regex engine to build the regex of the
constraint's pattern: when it refuses it, both searches fail
(`Catalog.allPages_complement_fails_on_oversized_pattern`).
-/

namespace CatalogQuery

/-- The operator that holds of a value exactly when the given one fails. -/
def Operator.complement : Operator → Operator
  | .eq => .ne
  | .ne => .eq
  | .gt => .lte
  | .lte => .gt
  | .lt => .gte
  | .gte => .lt
  | .like => .notLike
  | .notLike => .like
  | .isIn => .notIn
  | .notIn => .isIn

/-- The constraint with its operator swapped for the complement. -/
def Constraint.complement (k : Constraint) : Constraint := { k with op := k.op.complement }

namespace Operator

theorem takesList_complement (op : Operator) : op.complement.takesList = op.takesList := by
  cases op <;> rfl

theorem isPattern_complement (op : Operator) : op.complement.isPattern = op.isPattern := by
  cases op <;> rfl

theorem complement_pattern_iff (op : Operator) :
    op.complement = .like ∨ op.complement = .notLike ↔ op = .like ∨ op = .notLike := by
  cases op <;> simp [complement]

theorem complement_membership_iff (op : Operator) :
    op.complement = .isIn ∨ op.complement = .notIn ↔ op = .isIn ∨ op = .notIn := by
  cases op <;> simp [complement]

end Operator

namespace Constraint

@[simp] theorem field_complement (k : Constraint) : k.complement.field = k.field := rfl

@[simp] theorem op_complement (k : Constraint) : k.complement.op = k.op.complement := rfl

@[simp] theorem value_complement (k : Constraint) : k.complement.value = k.value := rfl

theorem patterns_complement (k : Constraint) : k.complement.patterns = k.patterns := by
  obtain ⟨field, op, v⟩ := k
  simp only [Constraint.patterns, op_complement, value_complement]
  unfold Predicate.patternOf
  rw [Operator.isPattern_complement]

/-- The checks of a constraint read only its field, its value and the kind of its operator,
which the complement keeps. -/
theorem Admissible.complement {R : Registry} {k : Constraint} (h : k.Admissible R) :
    k.complement.Admissible R where
  handled := h.handled
  patterns hop := h.patterns ((Operator.complement_pattern_iff k.op).1 hop)
  membership hop := h.membership ((Operator.complement_membership_iff k.op).1 hop)
  value := ⟨h.value.shape.trans (Operator.takesList_complement k.op).symm, h.value.nonempty,
    h.value.typed⟩
  key := h.key

end Constraint

/-- Under a registry of built-in handlers, a single constraint compiles exactly when the limit
admits depth 1 and the constraint passes the registry's checks. -/
theorem compile_constraint_ok_iff (config : CompilerConfig) {R : Registry} (hR : R.LeafOnly)
    (k : Constraint) (journal : Journal) :
    (∃ f, (compile config R (some (.constraint k)) journal).1 = .ok f) ↔
      1 ≤ config.maxDepth ∧ k.Admissible R := by
  rw [← errorOf_eq_none, compile_errorOf config hR, Expression.firstViolation, Expression.nodes,
    List.findSome?_singleton, Expression.nodeViolation_eq_none_iff]
  simp

/-! ### One comparison and its complement -/

/-- For a value of the scalar's type in the operator's shape, and a pattern only against a text,
the complementary operator holds exactly when the operator fails. -/
theorem Scalar.sat_complement_iff {x : Scalar} {op : Operator} {v : ConstraintValue}
    (htyped : ∀ y ∈ v.scalars, y.isId = x.isId) (hshape : v.isList = op.takesList)
    (hpattern : op.isPattern = true → x.isId = false) :
    x.Sat op.complement v ↔ ¬ x.Sat op v := by
  cases v with
  | single y =>
    have hy : y.isId = x.isId := htyped y (by simp [ConstraintValue.scalars])
    -- two scalars of one type compare one way exactly
    obtain ⟨o, -, hlt, heq, hgt⟩ := Cell.compare_ofScalar hy
    cases op
    case like | notLike =>
      have hx := hpattern rfl
      cases x with
      | id _ => simp [Scalar.isId] at hx
      | text s =>
        cases y with
        | id _ => simp [Scalar.isId] at hy
        | text p => simp [Operator.complement, Scalar.Sat]
    case isIn | notIn => simp [ConstraintValue.isList, Operator.takesList] at hshape
    all_goals simp only [Operator.complement, Scalar.Sat, ne_eq, ← hlt, ← heq, ← hgt]
    all_goals cases o <;> simp
  | list ys =>
    cases op
    case isIn => exact Iff.rfl
    case notIn => exact not_not.symm
    all_goals simp [ConstraintValue.isList, Operator.takesList] at hshape

/-- The complement of an admissible constraint holds of a binding exactly when the binding has
the constraint's metadata key and the constraint's comparison fails. -/
theorem Constraint.Admissible.holds_complement_iff {R : Registry} {k : Constraint}
    (hk : k.Admissible R) (x : Binding) :
    k.complement.Holds x ↔
      (∀ key, k.field = .metadata key → x.entry.key = key) ∧ ¬ (x.read k.field).Sat k.op k.value :=
  and_congr_right fun _ =>
    Scalar.sat_complement_iff (hk.typed_read x) hk.value.shape (hk.pattern_read x)

theorem FieldId.toKind_eq_metadata_iff (f : FieldId) :
    f.toKind = .metadata ↔ ∃ key, f = .metadata key := by
  cases f <;> simp [FieldId.toKind]

theorem one_lt_countP {α : Type} {p : α → Bool} {l : List α} {a b : α} (ha : a ∈ l) (hb : b ∈ l)
    (hab : a ≠ b) (hpa : p a = true) (hpb : p b = true) : 1 < l.countP p := by
  have ha' : a ∈ l.filter p := List.mem_filter.2 ⟨ha, hpa⟩
  have hb' : b ∈ l.filter p := List.mem_filter.2 ⟨hb, hpb⟩
  rw [List.countP_eq_length_filter]
  rcases hf : l.filter p with _ | ⟨c, _ | ⟨d, t⟩⟩
  · rw [hf] at ha'
    simp at ha'
  · rw [hf] at ha' hb'
    rw [List.mem_singleton] at ha' hb'
    exact absurd (ha'.trans hb'.symm) hab
  · simp

namespace Catalog

variable (c : Catalog)

/-! ### Revisions that reach a constraint's joins -/

/-- A revision reaches the joins of a field: it is the latest revision of an existing object,
the object's bucket exists if the field is a bucket field, and the revision has an entry of the
key if the field is a metadata field. -/
def Reaches (field : FieldId) (r : Revision) : Prop :=
  ∃ o, c.object? r.bucketId r.name = some o ∧ o.lastCommitTime = r.commitTime ∧
    (field.toKind = .bucketId ∨ field.toKind = .bucketName → ∃ b, c.bucket? o.bucketId = some b) ∧
    ∀ key, field = .metadata key → ∃ m ∈ r.metadata, m.key = key

theorem fits_constraint_iff (k : Constraint) (r : Revision) (x : Binding) :
    c.Fits (.constraint k) r x ↔
      (c.object? r.bucketId r.name = some x.object ∧ x.object.lastCommitTime = r.commitTime) ∧
      (k.field.toKind = .bucketId ∨ k.field.toKind = .bucketName →
        c.bucket? x.object.bucketId = some x.bucket) ∧
      (k.field.toKind = .metadata → x.entry ∈ r.metadata) := by
  have hk : (Expression.constraint k).constraints = [k] := rfl
  constructor
  · intro h
    exact ⟨h.object (by simp [hk]), fun hb => h.bucket ⟨k, by simp [hk], hb⟩,
      fun hm => h.entry ⟨k, by simp [hk], hm⟩⟩
  · rintro ⟨ho, hb, hm⟩
    refine ⟨fun _ => ho, ?_, ?_⟩
    · rintro ⟨k', hk', hb'⟩
      rw [hk, List.mem_singleton] at hk'
      exact hb (hk' ▸ hb')
    · rintro ⟨k', hk', hm'⟩
      rw [hk, List.mem_singleton] at hk'
      exact hm (hk' ▸ hm')

theorem fits_complement_iff (k : Constraint) (r : Revision) (x : Binding) :
    c.Fits (.constraint k.complement) r x ↔ c.Fits (.constraint k) r x := by
  rw [fits_constraint_iff, fits_constraint_iff, Constraint.field_complement]

theorem reaches_of_fits {k : Constraint} {r : Revision} {x : Binding}
    (hfit : c.Fits (.constraint k) r x) (hkey : ∀ key, k.field = .metadata key → x.entry.key = key) :
    c.Reaches k.field r := by
  obtain ⟨⟨ho, hl⟩, hb, hm⟩ := (c.fits_constraint_iff k r x).1 hfit
  refine ⟨x.object, ho, hl, fun hbf => ⟨x.bucket, hb hbf⟩, fun key hkf => ⟨x.entry, hm ?_, hkey key hkf⟩⟩
  exact (FieldId.toKind_eq_metadata_iff _).2 ⟨key, hkf⟩

/-- A revision that reaches a constraint's joins has a binding that fits it and carries the
constraint's metadata key. -/
theorem exists_fits_of_reaches {k : Constraint} {r : Revision} (h : c.Reaches k.field r) :
    ∃ x, c.Fits (.constraint k) r x ∧ ∀ key, k.field = .metadata key → x.entry.key = key := by
  obtain ⟨o, ho, hl, hb, hm⟩ := h
  -- the bucket and the entry the field reads, placeholders where it reads none
  obtain ⟨b, hb'⟩ : ∃ b : Bucket, k.field.toKind = .bucketId ∨ k.field.toKind = .bucketName →
      c.bucket? o.bucketId = some b := by
    by_cases hbf : k.field.toKind = .bucketId ∨ k.field.toKind = .bucketName
    · obtain ⟨b, hb⟩ := hb hbf
      exact ⟨b, fun _ => hb⟩
    · exact ⟨⟨0, "", ""⟩, fun h => absurd h hbf⟩
  obtain ⟨m, hm'⟩ : ∃ m : MetadataEntry,
      ∀ key, k.field = .metadata key → m ∈ r.metadata ∧ m.key = key := by
    cases hf : k.field with
    | metadata key =>
      obtain ⟨m, hmem, hkey⟩ := hm key hf
      refine ⟨m, fun key' h' => ?_⟩
      cases h'
      exact ⟨hmem, hkey⟩
    | _ => exact ⟨⟨"", ""⟩, fun _ h => by cases h⟩
  refine ⟨⟨o, b, m⟩, (c.fits_constraint_iff k r _).2 ⟨⟨ho, hl⟩, hb', fun hmk => ?_⟩,
    fun key hkf => (hm' key hkf).2⟩
  obtain ⟨key, hkf⟩ := (FieldId.toKind_eq_metadata_iff _).1 hmk
  exact (hm' key hkf).1

/-! ### Selecting with a constraint and with its complement -/

section Split

variable {R : Registry} {k : Constraint}

/-- A constraint or its complement selects a revision exactly when the revision reaches the
constraint's joins. -/
theorem selects_or_complement_iff (hk : k.Admissible R) (r : Revision) :
    c.Selects (.constraint k) r ∨ c.Selects (.constraint k.complement) r ↔ c.Reaches k.field r := by
  constructor
  · rintro (⟨x, hfit, hx⟩ | ⟨x, hfit, hx⟩)
    · exact c.reaches_of_fits hfit hx.1
    · exact c.reaches_of_fits ((c.fits_complement_iff k r x).1 hfit) hx.1
  · intro h
    obtain ⟨x, hfit, hkey⟩ := c.exists_fits_of_reaches h
    by_cases hsat : (x.read k.field).Sat k.op k.value
    · exact .inl ⟨x, hfit, hkey, hsat⟩
    · exact .inr ⟨x, (c.fits_complement_iff k r x).2 hfit, (hk.holds_complement_iff x).2 ⟨hkey, hsat⟩⟩

/-- Bindings that fit a revision for a constraint read the same object, and the same bucket if
the constraint reads a bucket field; so they agree on every field but metadata. -/
theorem agree_of_fits {r : Revision} {x y : Binding} (hx : c.Fits (.constraint k) r x)
    (hy : c.Fits (.constraint k) r y) (hm : k.field.toKind ≠ .metadata) :
    x.Agree y k.field.toKind := by
  obtain ⟨⟨hox, -⟩, hbx, -⟩ := (c.fits_constraint_iff k r x).1 hx
  obtain ⟨⟨hoy, -⟩, hby, -⟩ := (c.fits_constraint_iff k r y).1 hy
  have hobj : x.object = y.object := Option.some.inj (hox.symm.trans hoy)
  cases hf : k.field.toKind
  case bucketId | bucketName =>
    have hb : c.bucket? x.object.bucketId = some y.bucket := hobj ▸ hby (by simp [hf])
    exact Option.some.inj ((hbx (by simp [hf])).symm.trans hb)
  case objectName | kind | contentType => exact hobj
  case metadata => exact absurd hf hm

/-- A revision that a constraint and its complement both select reads metadata, and has two
entries of the constraint's key. -/
theorem selects_complement_both (hk : k.Admissible R) {r : Revision}
    (h₁ : c.Selects (.constraint k) r) (h₂ : c.Selects (.constraint k.complement) r) :
    ∃ key, k.field = .metadata key ∧ 1 < r.metadata.countP (·.key == key) := by
  obtain ⟨x, hfx, hx⟩ := h₁
  obtain ⟨y, hfy, hy⟩ := h₂
  rw [fits_complement_iff] at hfy
  obtain ⟨hykey, hysat⟩ := (hk.holds_complement_iff y).1 hy
  have hdiff : ¬ x.Agree y k.field.toKind := fun hagree =>
    hysat ((Constraint.holds_congr hagree).1 hx).2
  by_cases hm : k.field.toKind = .metadata
  · obtain ⟨key, hkey⟩ := (FieldId.toKind_eq_metadata_iff _).1 hm
    obtain ⟨-, -, hmx⟩ := (c.fits_constraint_iff k r x).1 hfx
    obtain ⟨-, -, hmy⟩ := (c.fits_constraint_iff k r y).1 hfy
    have hne : x.entry ≠ y.entry := fun h => hdiff (by rw [hm]; exact h)
    exact ⟨key, hkey, one_lt_countP (hmx hm) (hmy hm) hne (by simp [hx.1 key hkey])
      (by simp [hykey key hkey])⟩
  · exact absurd (c.agree_of_fits hfx hfy hm) hdiff

end Split

/-! ### Searching -/

/-- Searching with a constraint and with its complement splits the revisions that reach the
constraint's joins: the complement compiles too, every revision found by one of the two searches
reaches the joins and every one that reaches them is found, and a revision found by both has two
entries of the key of a metadata constraint. So for a field other than metadata the searches
find disjoint sets of revisions; for `metadata[key]` they split the revisions with one entry of
the key, and find none without one. This holds under a registry of built-in handlers, when the
revision ids are distinct, a word counts the revisions, and the regex engine builds the regex of
the constraint's pattern. -/
theorem allPages_complement_split (config : CompilerConfig) (R : Registry) (hR : R.LeafOnly)
    (k : Constraint) (journal : Journal) (f : CompiledFilter)
    (hc : (compile config R (some (.constraint k)) journal).1 = .ok f)
    (hids : (c.revisions.map (·.id)).Nodup) (hfit : c.revisions.length < UInt64.size)
    (build : RegexBuild) (hbuild : build.BuildsAll k.patterns) (order : OrderBy) (size : UInt64) :
    ∃ f', (compile config R (some (.constraint k.complement)) journal).1 = .ok f' ∧
      ∃ rows rows', c.allPages build f order size = .ok rows ∧
        c.allPages build f' order size = .ok rows' ∧
        (∀ r, r ∈ rows ∨ r ∈ rows' ↔ r ∈ c.revisions ∧ c.Reaches k.field r) ∧
        ∀ r, r ∈ rows → r ∈ rows' →
          ∃ key, k.field = .metadata key ∧ 1 < r.metadata.countP (·.key == key) := by
  obtain ⟨hdepth, hk⟩ := (compile_constraint_ok_iff config hR k journal).1 ⟨f, hc⟩
  obtain ⟨f', hc'⟩ :=
    (compile_constraint_ok_iff config hR k.complement journal).2 ⟨hdepth, hk.complement⟩
  obtain ⟨-, hrows, -⟩ := c.allPages_eq_sorted hR hc hids hfit
    (by rwa [Expression.patterns_constraint]) order size
  obtain ⟨-, hrows', -⟩ := c.allPages_eq_sorted hR hc' hids hfit
    (by rwa [Expression.patterns_constraint, Constraint.patterns_complement]) order size
  refine ⟨f', hc', _, _, hrows, hrows', fun r => ?_, fun r h₁ h₂ => ?_⟩
  · rw [c.mem_sorted_iff hR hc, c.mem_sorted_iff hR hc', ← and_or_left,
      c.selects_or_complement_iff hk]
  · rw [c.mem_sorted_iff hR hc] at h₁
    rw [c.mem_sorted_iff hR hc'] at h₂
    exact c.selects_complement_both hk h₁.2 h₂.2

/-- The search for `metadata[project] = alpha` and its complement in the sample catalog; the
constraint has no pattern, so the engine is never asked to build one. -/
theorem allPages_complement_split_sample :
    Registry.standard.LeafOnly ∧
    ∃ f, (compile CompilerConfig.default Registry.standard
        (some (.constraint ⟨.metadata "project", .eq, .single (.text "alpha")⟩)) #[]).1 = .ok f ∧
      (Sample.catalog.1.revisions.map (·.id)).Nodup ∧
      Sample.catalog.1.revisions.length < UInt64.size ∧
      RegexBuild.BuildsAll (fun _ => .ok ())
        (Constraint.patterns ⟨.metadata "project", .eq, .single (.text "alpha")⟩) ∧
      ∃ f', (compile CompilerConfig.default Registry.standard
          (some (.constraint (Constraint.complement
            ⟨.metadata "project", .eq, .single (.text "alpha")⟩))) #[]).1 = .ok f' ∧
        ∃ rows rows', Sample.catalog.1.allPages (fun _ => .ok ()) f .keyAsc 50 = .ok rows ∧
          Sample.catalog.1.allPages (fun _ => .ok ()) f' .keyAsc 50 = .ok rows' ∧
          (∀ r, r ∈ rows ∨ r ∈ rows' ↔
            r ∈ Sample.catalog.1.revisions ∧ Sample.catalog.1.Reaches (.metadata "project") r) ∧
          ∀ r, r ∈ rows → r ∈ rows' → ∃ key, FieldId.metadata "project" = .metadata key ∧
            1 < r.metadata.countP (·.key == key) := by
  obtain ⟨f, hc⟩ : ∃ f, (compile CompilerConfig.default Registry.standard
      (some (.constraint ⟨.metadata "project", .eq, .single (.text "alpha")⟩)) #[]).1 = .ok f :=
    ⟨_, by rw [compile_some_eq]; rfl⟩
  have hfit : Sample.catalog.1.revisions.length < UInt64.size := by decide
  have hbuild : RegexBuild.BuildsAll (fun _ => .ok ())
      (Constraint.patterns ⟨.metadata "project", .eq, .single (.text "alpha")⟩) := fun _ _ => rfl
  exact ⟨Registry.leafOnly_standard, f, hc, Sample.ids_nodup, hfit, hbuild,
    allPages_complement_split _ _ _ Registry.leafOnly_standard _ _ f hc Sample.ids_nodup hfit _
      hbuild .keyAsc 50⟩

/-- With a pattern of 100000 underscores, `name notLike p` and its complement `name like p` both
compile, the sample catalog's revision ids are distinct and the latest revision of the object
`name` reaches the object join; but the regex engine refuses the pattern's regex as over its size
limit, as the regex crate does, and both searches fail. -/
theorem allPages_complement_fails_on_oversized_pattern :
    ∃ f f', (compile CompilerConfig.default Registry.standard (some (.constraint
        ⟨.objectName, .notLike, .single (.text (String.ofList (List.replicate 100000 '_')))⟩))
        #[]).1 = .ok f ∧
      (compile CompilerConfig.default Registry.standard (some (.constraint (Constraint.complement
        ⟨.objectName, .notLike, .single (.text (String.ofList (List.replicate 100000 '_')))⟩)))
        #[]).1 = .ok f' ∧
      (Sample.catalog.1.revisions.map (·.id)).Nodup ∧
      (∃ r ∈ Sample.catalog.1.revisions, Sample.catalog.1.Reaches .objectName r) ∧
      Sample.catalog.1.allPages
          (fun _ => .error "Compiled regex exceeds size limit of 10485760 bytes.") f .keyAsc 50 =
        .error (.invalidPattern "Compiled regex exceeds size limit of 10485760 bytes.") ∧
      Sample.catalog.1.allPages
          (fun _ => .error "Compiled regex exceeds size limit of 10485760 bytes.") f' .keyAsc 50 =
        .error (.invalidPattern "Compiled regex exceeds size limit of 10485760 bytes.") := by
  have hc := compile_objectName_notLike (String.ofList (List.replicate 100000 '_'))
  obtain ⟨hdepth, hk⟩ := (compile_constraint_ok_iff _ Registry.leafOnly_standard _ _).1 ⟨_, hc⟩
  obtain ⟨f', hc'⟩ :=
    (compile_constraint_ok_iff _ Registry.leafOnly_standard _ _).2 ⟨hdepth, hk.complement⟩
  have hpat : ∀ op s, op.isPattern = true →
      (Expression.constraint ⟨.objectName, op, .single (.text s)⟩).patterns = [s] := by
    intro op s hop
    simp [Constraint.patterns, Predicate.patternOf, hop]
  have hreach : Sample.catalog.1.Reaches .objectName
      ⟨2, 1, "name", 200, "commit name at 200", [⟨"project", "alpha"⟩, ⟨"owner", "alice"⟩]⟩ :=
    ⟨⟨1, "name", "workflow", "application/xml", 200⟩, by decide, rfl,
      fun h => by simp [FieldId.toKind] at h, fun _ h => by cases h⟩
  refine ⟨_, f', hc, hc', Sample.ids_nodup, ⟨_, by decide, hreach⟩, ?_, ?_⟩
  · refine Sample.catalog.1.allPages_eq_error_of_refused ?_ Registry.leafOnly_standard hc
      (hpat .notLike _ rfl) .keyAsc 50
    rfl
  · refine Sample.catalog.1.allPages_eq_error_of_refused ?_ Registry.leafOnly_standard hc'
      (hpat .like _ rfl) .keyAsc 50
    rfl

end Catalog

end CatalogQuery
