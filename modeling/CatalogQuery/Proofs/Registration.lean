import CatalogQuery.Proofs.Acceptance
import CatalogQuery.Filter.Sample

/-!
# The first registration of a field wins

Registering handlers one after another (`Registry.registerAll`) keeps them all, in order, and
each registration answers whether no earlier handler claims its field. The registry's handler of
a field is the first registered for it, and dispatching a constraint compiles it with that
handler, or fails with `noHandler` and leaves the join graph alone when there is none.

Compiling reads a registry only through which fields have a handler (`compile_congr`), so a
registry built from a list of field names compiles every filter as any list naming the same
fields does, whatever their order and repetitions (`registerAll_first_registration_wins`).
-/

namespace CatalogQuery

namespace Registry

/-- Registers handlers one after another: the final registry, and what each registration
answered, in order. -/
def registerAll : Registry → List Handler → Registry × List Bool
  | r, [] => (r, [])
  | r, h :: hs =>
    (((r.register h).1.registerAll hs).1, (r.register h).2.1 :: ((r.register h).1.registerAll hs).2)

/-! ### One registration -/

theorem register_handlers (r : Registry) (h : Handler) :
    (r.register h).1.handlers = r.handlers ++ [h] := rfl

theorem register_answer (r : Registry) (h : Handler) :
    (r.register h).2.1 = true ↔ ∀ h' ∈ r.handlers, h'.field ≠ h.field := by
  simp [register, handlerFor?, List.find?_eq_none]

/-! ### A sequence of registrations -/

theorem registerAll_handlers (r : Registry) (hs : List Handler) :
    (r.registerAll hs).1.handlers = r.handlers ++ hs := by
  induction hs generalizing r with
  | nil => simp [registerAll]
  | cons h hs ih => simp [registerAll, ih, register_handlers]

/-- The `i`-th registration answers `true` exactly when no handler before it, among those
already in the registry and those registered earlier in the sequence, claims its field. -/
theorem registerAll_answer (r : Registry) (hs : List Handler) (i : Nat) :
    (r.registerAll hs).2[i]? = some true ↔
      ∃ h, hs[i]? = some h ∧ ∀ h' ∈ r.handlers ++ hs.take i, h'.field ≠ h.field := by
  induction hs generalizing r i with
  | nil => simp [registerAll]
  | cons h hs ih =>
    cases i with
    | zero => simp [registerAll, register_answer]
    | succ i => simp [registerAll, ih, register_handlers]

theorem length_registerAll (r : Registry) (hs : List Handler) :
    (r.registerAll hs).2.length = hs.length := by
  induction hs generalizing r with
  | nil => rfl
  | cons h hs ih => simp [registerAll, ih]

theorem handlerFor?_registerAll_empty (hs : List Handler) (k : FieldKind) (h : Handler) :
    (empty.registerAll hs).1.handlerFor? k = some h ↔
      ∃ i, ∃ hi : i < hs.length, hs[i] = h ∧ h.field = k ∧ ∀ h' ∈ hs.take i, h'.field ≠ k := by
  rw [handlerFor?, registerAll_handlers, empty, List.nil_append, List.find?_eq_some_iff_getElem]
  constructor
  · rintro ⟨hk, i, hi, rfl, hbefore⟩
    refine ⟨i, hi, rfl, by simpa using hk, fun h' hh' hk' => ?_⟩
    obtain ⟨j, hj, rfl⟩ := List.getElem_of_mem hh'
    rw [List.length_take] at hj
    have hj' := hbefore j (by omega)
    rw [List.getElem_take] at hk'
    simp [hk'] at hj'
  · rintro ⟨i, hi, rfl, hk, hbefore⟩
    refine ⟨by simpa using hk, i, hi, rfl, fun j hj => ?_⟩
    have hne := hbefore hs[j] (List.mem_take_iff_getElem.2 ⟨j, by omega, rfl⟩)
    simpa using hne

/-! ### Dispatch and compilation -/

theorem handlerFor?_eq_none_of_forall {hs : List Handler} {k : FieldKind}
    (h : ∀ x ∈ hs, x.field ≠ k) : (⟨hs⟩ : Registry).handlerFor? k = none := by
  rw [handlerFor?, List.find?_eq_none]
  simpa using h

/-- Two registries of built-in handlers with a handler for the same fields dispatch alike. -/
theorem dispatch_congr {R R' : Registry} (hR : R.LeafOnly) (hR' : R'.LeafOnly)
    (h : ∀ k, (R.handlerFor? k).isSome = (R'.handlerFor? k).isSome) (c : Constraint) :
    R.dispatch c = R'.dispatch c := by
  have hc := h c.field.toKind
  cases hr : R.handlerFor? c.field.toKind with
  | some x =>
    obtain ⟨y, hy⟩ := Option.isSome_iff_exists.1 (by rw [← hc, hr]; rfl)
    rw [Constraint.dispatch_of_some hr, Constraint.dispatch_of_some hy, hR.compile_eq hr,
      hR'.compile_eq hy]
  | none =>
    have hr' : R'.handlerFor? c.field.toKind = none := by
      rw [← Option.not_isSome_iff_eq_none, ← hc, hr]
      simp
    simp only [dispatch, hr, hr']

mutual

/-- The recursive compiler reads a registry only through its dispatch. -/
theorem compileRec_congr {R R' : Registry} (hd : ∀ c, R.dispatch c = R'.dispatch c)
    (limit d : Nat) : ∀ e, R.compileRec limit d e = R'.compileRec limit d e
  | .constraint c => by simp only [compileRec, hd]
  | .and cs => by simp only [compileRec, compileRecAll_congr hd limit (d + 1) cs]
  | .or cs => by simp only [compileRec, compileRecAll_congr hd limit (d + 1) cs]

theorem compileRecAll_congr {R R' : Registry} (hd : ∀ c, R.dispatch c = R'.dispatch c)
    (limit d : Nat) : ∀ es, R.compileRecAll limit d es = R'.compileRecAll limit d es
  | [] => rfl
  | e :: es => by
    simp only [compileRecAll, compileRec_congr hd limit d e, compileRecAll_congr hd limit d es]

end

theorem leafOnly_registerAll (ks : List FieldKind) :
    (empty.registerAll (ks.map Handler.leaf)).1.LeafOnly := by
  intro h hh
  rw [registerAll_handlers, empty, List.nil_append] at hh
  obtain ⟨k, -, rfl⟩ := List.mem_map.1 hh
  rfl

end Registry

/-- Under registries of built-in handlers, compiling reads a registry only through which fields
have a handler. -/
theorem compile_congr {R R' : Registry} (hR : R.LeafOnly) (hR' : R'.LeafOnly)
    (h : ∀ k, (R.handlerFor? k).isSome = (R'.handlerFor? k).isSome) (config : CompilerConfig)
    (e? : Option Expression) (journal : Journal) :
    compile config R e? journal = compile config R' e? journal := by
  cases e? with
  | none => rfl
  | some e =>
    simp only [compile, Registry.compileInto_eq,
      Registry.compileRec_congr (Registry.dispatch_congr hR hR' h)]

theorem isSome_handlerFor?_registerAll (ks : List FieldKind) (k : FieldKind) :
    ((Registry.empty.registerAll (ks.map Handler.leaf)).1.handlerFor? k).isSome ↔ k ∈ ks := by
  rw [Registry.handlerFor?, Registry.registerAll_handlers, Registry.empty, List.nil_append,
    List.find?_isSome]
  simp [Handler.leaf]

/-- Registering handlers on the empty registry keeps every one of them, in order, and the `i`-th
registration answers `true` exactly when no earlier handler claims its field. The handler of a
field is the first registered for it, and dispatching a constraint runs that handler's own
compile action; with no handler for the field it fails with `noHandler`, leaving the join graph
as it was. So compiling under a registry built from field names depends only on which fields are
named, not on their order or repetitions. -/
theorem registerAll_first_registration_wins (hs : List Handler) :
    (Registry.empty.registerAll hs).2.length = hs.length ∧
    (∀ i (hi : i < hs.length), (Registry.empty.registerAll hs).2[i]? = some true ↔
      ∀ h ∈ hs.take i, h.field ≠ hs[i].field) ∧
    (Registry.empty.registerAll hs).1.size = hs.length ∧
    (∀ k i (hi : i < hs.length), hs[i].field = k → (∀ h ∈ hs.take i, h.field ≠ k) →
      (Registry.empty.registerAll hs).1.handlerFor? k = some hs[i]) ∧
    (∀ k, (∀ h ∈ hs, h.field ≠ k) → (Registry.empty.registerAll hs).1.handlerFor? k = none) ∧
    (∀ (c : Constraint) (h : Handler),
      (Registry.empty.registerAll hs).1.handlerFor? c.field.toKind = some h →
        (Registry.empty.registerAll hs).1.dispatch c = .leaf c <$> h.compile c) ∧
    (∀ c : Constraint, (Registry.empty.registerAll hs).1.handlerFor? c.field.toKind = none →
      ∀ b : Build, ∃ j, ((Registry.empty.registerAll hs).1.dispatch c).run.run b =
        (.error (.noHandler c.field.toKind), { b with journal := j })) ∧
    ∀ ks ks' : List FieldKind, (∀ k, k ∈ ks ↔ k ∈ ks') →
      ∀ config e? journal,
        compile config (Registry.empty.registerAll (ks.map Handler.leaf)).1 e? journal =
          compile config (Registry.empty.registerAll (ks'.map Handler.leaf)).1 e? journal := by
  have hreg : Registry.empty.registerAll hs = (⟨hs⟩, (Registry.empty.registerAll hs).2) := by
    rw [Prod.ext_iff]
    exact ⟨by rw [Registry.mk.injEq, Registry.registerAll_handlers]; rfl, rfl⟩
  refine ⟨Registry.length_registerAll _ hs, fun i hi => ?_, ?_,
    fun k i hi hk hbefore => ?_, fun k h => ?_, fun c h hr => Constraint.dispatch_of_some hr,
    fun c hr b => Constraint.dispatch_run_of_none hr b,
    fun ks ks' hks config e? journal => compile_congr (Registry.leafOnly_registerAll ks)
      (Registry.leafOnly_registerAll ks') (fun k => ?_) config e? journal⟩
  · rw [Registry.registerAll_answer, List.getElem?_eq_getElem hi]
    simp [Registry.empty]
  · rw [Registry.size, Registry.registerAll_handlers]
    rfl
  · exact (Registry.handlerFor?_registerAll_empty hs k hs[i]).2 ⟨i, hi, rfl, hk, hbefore⟩
  · rw [hreg]
    exact Registry.handlerFor?_eq_none_of_forall h
  · rw [Bool.eq_iff_iff, isSome_handlerFor?_registerAll, isSome_handlerFor?_registerAll]
    exact hks k

/-- Registering a handler that refuses every constraint on the kind before the built-in one: the
second registration answers `false`, both handlers are kept, and a constraint on the kind is
refused by the first. -/
theorem rejecting_handler_registered_first_wins :
    (Registry.empty.registerAll [Handler.rejectAll .kind, Handler.leaf .kind]).2 = [true, false] ∧
    (Registry.empty.registerAll [Handler.rejectAll .kind, Handler.leaf .kind]).1.size = 2 ∧
    ((Registry.empty.registerAll [Handler.rejectAll .kind, Handler.leaf .kind]).1.dispatch
        ⟨.kind, .eq, .single (.text "workflow")⟩).run.run ⟨JoinGraph.empty, #[]⟩ =
      (.error (.invalidConstraint "kind" "rejected"), ⟨JoinGraph.empty, #[]⟩) := by
  obtain ⟨-, -, hsize, hfirst, -, hdispatch, -⟩ :=
    registerAll_first_registration_wins [Handler.rejectAll .kind, Handler.leaf .kind]
  have hk := hfirst .kind 0 (by decide) rfl (by simp)
  refine ⟨rfl, hsize, ?_⟩
  rw [hdispatch ⟨.kind, .eq, .single (.text "workflow")⟩ _ hk]
  rfl

end CatalogQuery
