import CatalogQuery.Proofs.Acceptance
import CatalogQuery.Filter.WhereArgs
import CatalogQuery.Filter.Sample

/-!
# Payloads are the encodings of expressions

`Expression.toArgs` writes an expression as a where-argument payload: a group as the node whose
only member is `andArg` or `orArg`, holding its children; a constraint as the node whose only
member is its field's, naming one operator with the value as operand (a string for a text, an
integer for an identifier, an array of these for a list).

Converting a payload inverts this exactly (`toExpression_inverts_toArgs`): a payload converts to
`e` under a nesting limit exactly when it is the payload of `e` and every node of `e` lies within
the limit, so compiling `e` under the same limit never fails on depth. Numbers are taken in the reader's shape (`WhereArgs.Canonical`): a
non-negative integer stored as a negative one would convert, but is no one's encoding.

A payload that does not convert fails with the error of the first node in pre-order that fails its
own checks (`WhereArgs.firstError`), the checks of one node taken in order by `WhereArgs.shape`:
depth, unknown members, the number of members set, then the operator arguments of a field member.

Conversion is by well-founded recursion; the proofs go through one equation,
`WhereArgs.convert_eq_shape`, which splits a node into its own checks and its children, and one
induction principle over the children (`WhereArgs.induction_children`).
-/

namespace CatalogQuery

theorem bind_eq_ok {ε α β : Type} {x : Except ε α} {f : α → Except ε β} {b : β}
    (h : x >>= f = .ok b) : ∃ a, x = .ok a ∧ f a = .ok b := by
  cases x with
  | error e => cases h
  | ok a => exact ⟨a, rfl, h⟩

theorem map_eq_ok {ε α β : Type} {x : Except ε α} {f : α → β} {b : β}
    (h : f <$> x = .ok b) : ∃ a, x = .ok a ∧ f a = b := by
  cases x with
  | error e => cases h
  | ok a => exact ⟨a, rfl, Except.ok.inj h⟩

theorem errorOf_map {α β : Type} (f : α → β) (x : Except FilterError α) :
    errorOf (f <$> x) = errorOf x := by
  cases x <;> rfl

/-! ### Numbers in the reader's shape -/

namespace JsonNumber

/-- A number in the shape the reader gives it: only a negative integer is stored as one. -/
def Canonical : JsonNumber → Prop
  | .neg n => n < 0
  | .nat _ | .float _ => True

instance : DecidablePred Canonical := fun
  | .neg n => inferInstanceAs (Decidable (n < 0))
  | .nat _ | .float _ => isTrue trivial

-- The bound is written `Nat.pow 2 63`, as `toInt64?` writes it.
theorem toNat_toUInt64_lt {n : Int64} (h : ¬n < 0) : n.toUInt64.toNat < Nat.pow 2 63 := by
  have hint : 0 ≤ n.toBitVec.toInt := by
    rw [Int64.lt_iff_toInt_lt, Int64.toInt_zero] at h
    exact Int.not_lt.1 h
  have hlt := BitVec.isLt n.toBitVec
  rw [BitVec.toInt_eq_toNat_cond] at hint
  show n.toUInt64.toNat < 2 ^ 63
  rw [← Int64.toNat_toBitVec]
  split at hint <;> omega

theorem not_toInt64_lt {u : UInt64} (h : u.toNat < Nat.pow 2 63) : ¬u.toInt64 < 0 := by
  rw [Int64.lt_iff_toInt_lt, Int64.toInt_zero, Int64.toInt, UInt64.toBitVec_toInt64,
    BitVec.toInt_eq_toNat_cond]
  have hu : u.toBitVec.toNat < 2 ^ 63 := h
  split <;> omega

theorem toInt64?_ofInt64 (n : Int64) : (ofInt64 n).toInt64? = some n := by
  by_cases hn : n < 0
  · rw [ofInt64, if_pos hn]
    rfl
  · rw [ofInt64, if_neg hn, toInt64?, if_pos (toNat_toUInt64_lt hn), Int64.toInt64_toUInt64]

theorem ofInt64_eq {x : JsonNumber} {n : Int64} (hx : x.Canonical) (h : x.toInt64? = some n) :
    ofInt64 n = x := by
  cases x with
  | nat u =>
    by_cases hu : u.toNat < Nat.pow 2 63
    · rw [toInt64?, if_pos hu, Option.some.injEq] at h
      subst h
      rw [ofInt64, if_neg (not_toInt64_lt hu), UInt64.toUInt64_toInt64]
    · rw [toInt64?, if_neg hu] at h
      cases h
  | neg m =>
    simp only [toInt64?, Option.some.injEq] at h
    subst h
    have hm : m < 0 := hx
    simp [ofInt64, hm]
  | float f => cases h

end JsonNumber

/-- The values an operand gives: the items of an array, or the operand itself. -/
def Json.operandValues : Json → List Json
  | .array items => items
  | j => [j]

/-- A value that is no number, or a number in the reader's shape. -/
def Json.NumberCanonical : Json → Prop
  | .number n => n.Canonical
  | _ => True

instance : DecidablePred Json.NumberCanonical := fun
  | .number n => inferInstanceAs (Decidable n.Canonical)
  | .null | .bool _ | .string _ | .array _ | .object _ => isTrue trivial

theorem Json.operandValues_eq_singleton {j : Json} (h : ∀ items, j ≠ .array items) :
    j.operandValues = [j] := by
  cases j with
  | array items => exact absurd rfl (h items)
  | _ => rfl

/-! ### Operands -/

/-- A constraint's value as an operand: a text as a string, an identifier as an integer, a list
as an array of these. -/
def ConstraintValue.toJson : ConstraintValue → Json
  | .single s => s.toJson
  | .list xs => .array (xs.map Scalar.toJson)

namespace OperatorArgs

theorem scalar_toJson (field : FieldId) (s : Scalar) : scalar field s.toJson = .ok s := by
  cases s with
  | text t => rfl
  | id n => simp [Scalar.toJson, Json.int, scalar, JsonNumber.toInt64?_ofInt64]

theorem eq_toJson_of_scalar {field : FieldId} {j : Json} {s : Scalar} (hj : j.NumberCanonical)
    (h : scalar field j = .ok s) : j = s.toJson := by
  cases j with
  | string t =>
    cases h
    rfl
  | number n =>
    cases hn : n.toInt64? with
    | none => simp [scalar, hn] at h
    | some i =>
      simp only [scalar, hn, Except.ok.injEq] at h
      subst h
      simp [Scalar.toJson, Json.int, JsonNumber.ofInt64_eq hj hn]
  | null | bool _ | array _ | object _ => cases h

theorem mapM_scalar_toJson (field : FieldId) (xs : List Scalar) :
    (xs.map Scalar.toJson).mapM (scalar field) = .ok xs := by
  induction xs with
  | nil => rfl
  | cons x xs ih =>
    rw [List.map_cons, List.mapM_cons, scalar_toJson, ih]
    rfl

theorem eq_map_toJson_of_mapM {field : FieldId} {items : List Json} {xs : List Scalar}
    (hc : ∀ v ∈ items, v.NumberCanonical) (h : items.mapM (scalar field) = .ok xs) :
    items = xs.map Scalar.toJson := by
  induction items generalizing xs with
  | nil =>
    cases h
    rfl
  | cons v items ih =>
    rw [List.mapM_cons] at h
    obtain ⟨s, hs, h⟩ := bind_eq_ok h
    obtain ⟨ss, hss, h⟩ := bind_eq_ok h
    cases h
    rw [List.map_cons, ← eq_toJson_of_scalar (hc v (by simp)) hs,
      ← ih (fun w hw => hc w (by simp [hw])) hss]

theorem parse_name (op : Operator) : Operator.parse op.name = .ok op := by
  cases op <;> rfl

theorem eq_name_of_parse {s : String} {op : Operator} (h : Operator.parse s = .ok op) :
    s = op.name := by
  unfold Operator.parse Operator.ofName? at h
  split at h
  · next op' hfind =>
    have hp := List.find?_some hfind
    cases h
    exact (beq_iff_eq.1 hp).symm
  · cases h

/-- The value an operand gives a constraint on `field`: a list for an array, else one scalar. -/
def operandValue (field : FieldId) : Json → Except FilterError ConstraintValue
  | .array items => ConstraintValue.list <$> items.mapM (scalar field)
  | other => ConstraintValue.single <$> scalar field other

theorem toConstraint_singleton (field : FieldId) (name : String) (operand : Json) :
    (⟨[(name, operand)]⟩ : OperatorArgs).toConstraint field = (do
      let op ← Operator.parse name
      let value ← operandValue field operand
      pure ⟨field, op, value⟩) := by
  cases operand <;> rfl

theorem operandValue_toJson (field : FieldId) (v : ConstraintValue) :
    operandValue field v.toJson = .ok v := by
  cases v with
  | single s =>
    have hs : operandValue field s.toJson = ConstraintValue.single <$> scalar field s.toJson := by
      cases s <;> rfl
    rw [ConstraintValue.toJson, hs, scalar_toJson]
    rfl
  | list xs =>
    rw [ConstraintValue.toJson, operandValue, mapM_scalar_toJson]
    rfl

theorem eq_toJson_of_operandValue {field : FieldId} {j : Json} {v : ConstraintValue}
    (hc : ∀ w ∈ j.operandValues, w.NumberCanonical) (h : operandValue field j = .ok v) :
    j = v.toJson := by
  cases j with
  | array items =>
    obtain ⟨xs, hxs, rfl⟩ := map_eq_ok h
    have hitems : ∀ w ∈ items, w.NumberCanonical := hc
    rw [eq_map_toJson_of_mapM hitems hxs]
    rfl
  | _ =>
    obtain ⟨s, hs, rfl⟩ := map_eq_ok h
    exact eq_toJson_of_scalar (hc _ (List.mem_singleton_self _)) hs

theorem toConstraint_single (c : Constraint) :
    (single c.op c.value.toJson).toConstraint c.field = .ok c := by
  rw [single, toConstraint_singleton, parse_name, operandValue_toJson]
  rfl

theorem eq_single_of_toConstraint {a : OperatorArgs} {field : FieldId} {c : Constraint}
    (hc : ∀ m ∈ a.members, ∀ v ∈ m.2.operandValues, v.NumberCanonical)
    (h : a.toConstraint field = .ok c) : c.field = field ∧ a = single c.op c.value.toJson := by
  -- only a single member can state a constraint
  rcases a with ⟨_ | ⟨⟨name, operand⟩, _ | ⟨m, ms⟩⟩⟩
  · cases h
  · rw [toConstraint_singleton] at h
    obtain ⟨op, hop, h⟩ := bind_eq_ok h
    obtain ⟨value, hvalue, h⟩ := bind_eq_ok h
    cases h
    have hops : ∀ v ∈ operand.operandValues, v.NumberCanonical := hc _ (List.mem_singleton_self _)
    refine ⟨rfl, ?_⟩
    rw [single, eq_name_of_parse hop, eq_toJson_of_operandValue hops hvalue]
  · cases h

end OperatorArgs

/-! ### Encoding expressions -/

/-- The node whose only member is the field's, holding the operator arguments. -/
def WhereArgs.ofField (args : OperatorArgs) : FieldId → WhereArgs
  | .bucketId => { bucketIdArg := some args }
  | .bucketName => { bucketNameArg := some args }
  | .objectName => { nameArg := some args }
  | .kind => { kindArg := some args }
  | .contentType => { contentTypeArg := some args }
  | .metadata key => { metadataArg := some ⟨key, args⟩ }

/-- A constraint as a node: its field's member, naming the operator with the value as operand. -/
def Constraint.toArgs (c : Constraint) : WhereArgs :=
  WhereArgs.ofField (OperatorArgs.single c.op c.value.toJson) c.field

/-- The group node of a kind, holding the children. -/
def GroupKind.args : GroupKind → List WhereArgs → WhereArgs
  | .and, cs => .and cs
  | .or, cs => .or cs

namespace Expression

mutual

/-- The payload of an expression. -/
def toArgs : Expression → WhereArgs
  | .constraint c => c.toArgs
  | .and es => .and (toArgsAll es)
  | .or es => .or (toArgsAll es)

/-- The payloads of sibling expressions. -/
def toArgsAll : List Expression → List WhereArgs
  | [] => []
  | e :: es => e.toArgs :: toArgsAll es

end

end Expression

theorem JsonNumber.canonical_ofInt64 (n : Int64) : (JsonNumber.ofInt64 n).Canonical := by
  by_cases hn : n < 0
  · rw [JsonNumber.ofInt64, if_pos hn]
    exact hn
  · rw [JsonNumber.ofInt64, if_neg hn]
    trivial

theorem ConstraintValue.numberCanonical_toJson (v : ConstraintValue) :
    ∀ w ∈ v.toJson.operandValues, w.NumberCanonical := by
  have hscalar : ∀ s : Scalar, s.toJson.NumberCanonical := by
    intro s
    cases s with
    | text _ => trivial
    | id n => exact JsonNumber.canonical_ofInt64 n
  intro w hw
  cases v with
  | single s =>
    have hs : ∀ items, s.toJson ≠ .array items := by
      cases s <;> simp [Scalar.toJson, Json.int]
    rw [ConstraintValue.toJson, Json.operandValues_eq_singleton hs, List.mem_singleton] at hw
    exact hw ▸ hscalar s
  | list xs =>
    have hw : w ∈ xs.map Scalar.toJson := hw
    obtain ⟨s, -, rfl⟩ := List.mem_map.1 hw
    exact hscalar s

/-! ### Nodes -/

namespace WhereArgs

/-- The children of a node: those of its AND member, else those of its OR member. -/
def children (a : WhereArgs) : List WhereArgs :=
  a.andArg.getD (a.orArg.getD [])

mutual

/-- The nodes of a payload in pre-order, each with its depth, the root at `depth`. -/
def nodes (depth : Nat) : WhereArgs → List (WhereArgs × Nat)
  | a@⟨some cs, _, _, _, _, _, _, _, _⟩ => (a, depth) :: nodesAll (depth + 1) cs
  | a@⟨none, some cs, _, _, _, _, _, _, _⟩ => (a, depth) :: nodesAll (depth + 1) cs
  | a@⟨none, none, _, _, _, _, _, _, _⟩ => [(a, depth)]

/-- The nodes of sibling payloads in pre-order, all siblings at `depth`. -/
def nodesAll (depth : Nat) : List WhereArgs → List (WhereArgs × Nat)
  | [] => []
  | a :: as => a.nodes depth ++ nodesAll depth as

end

theorem nodes_eq (a : WhereArgs) (depth : Nat) :
    a.nodes depth = (a, depth) :: nodesAll (depth + 1) a.children := by
  obtain ⟨_ | cs, _ | cs', _, _, _, _, _, _, _⟩ := a <;> rfl

mutual

/-- Induction over payload trees: what holds of a node whenever it holds of the node's children
holds of every node. -/
theorem induction_children {motive : WhereArgs → Prop}
    (step : ∀ a, (∀ c ∈ a.children, motive c) → motive a) : ∀ a, motive a
  | ⟨some cs, _, _, _, _, _, _, _, _⟩ => step _ (induction_childrenAll step cs)
  | ⟨none, some cs, _, _, _, _, _, _, _⟩ => step _ (induction_childrenAll step cs)
  | ⟨none, none, _, _, _, _, _, _, _⟩ => step _ fun _ hc => absurd hc List.not_mem_nil

theorem induction_childrenAll {motive : WhereArgs → Prop}
    (step : ∀ a, (∀ c ∈ a.children, motive c) → motive a) :
    ∀ cs : List WhereArgs, ∀ c ∈ cs, motive c
  | [] => fun _ hc => absurd hc List.not_mem_nil
  | c :: cs => List.forall_mem_cons.2 ⟨induction_children step c, induction_childrenAll step cs⟩

end

/-! ### Numbers of a payload -/

/-- The numbers of a node's operands are in the reader's shape. -/
def OperandsCanonical (a : WhereArgs) : Prop :=
  ∀ fa ∈ a.fieldMembers, ∀ m ∈ fa.2.members, ∀ v ∈ m.2.operandValues, v.NumberCanonical

instance : DecidablePred OperandsCanonical := fun a =>
  inferInstanceAs
    (Decidable (∀ fa ∈ a.fieldMembers, ∀ m ∈ fa.2.members, ∀ v ∈ m.2.operandValues,
      v.NumberCanonical))

theorem operandsCanonical_constraint (c : Constraint) : c.toArgs.OperandsCanonical := by
  have hf : c.toArgs.fieldMembers = [(c.field, OperatorArgs.single c.op c.value.toJson)] := by
    rw [Constraint.toArgs]
    cases c.field <;> rfl
  intro fa hfa m hm
  rw [hf, List.mem_singleton] at hfa
  subst hfa
  simp only [OperatorArgs.single, List.mem_singleton] at hm
  subst hm
  exact c.value.numberCanonical_toJson

/-- Every node's operands hold their numbers in the reader's shape. -/
def Canonical (a : WhereArgs) : Prop :=
  ∀ n ∈ a.nodes 1, n.1.OperandsCanonical

instance : DecidablePred Canonical := fun a =>
  inferInstanceAs (Decidable (∀ n ∈ a.nodes 1, n.1.OperandsCanonical))

/-! ### The checks of one node -/

/-- What a node is once its own checks pass: a group of the given kind, or a constraint. -/
inductive Shape where
  | group (kind : GroupKind) (children : List WhereArgs)
  | leaf (c : Constraint)

/-- The checks of one node at `depth`, in order: its depth, then its first unknown member (they
are kept in name order), then that exactly one of the members that make a node is set; a group
then passes with its children, and a field member's operator arguments must state a
constraint. -/
def shape (a : WhereArgs) (depth limit : Nat) : Except FilterError Shape :=
  if depth > limit then .error (.depthLimitExceeded depth limit)
  else
    match a.unknown with
    | (name, _) :: _ => .error (.invalidConstraint name "unknown field")
    | [] =>
      if a.memberCount ≠ 1 then
        .error (.malformedExpression
          ("expected exactly one of a field argument, andArg or orArg, found " ++
            toString a.memberCount))
      else
        match a.andArg, a.orArg, a.fieldMembers with
        | some cs, _, _ => .ok (.group .and cs)
        | none, some cs, _ => .ok (.group .or cs)
        | none, none, (field, args) :: _ => .leaf <$> args.toConstraint field
        | none, none, [] => .error (.malformedExpression
            "expected exactly one of a field argument, andArg or orArg, found 0")

/-- The expression of a node that passed its checks at `depth`; a group converts its children
one level deeper. -/
def Shape.convert (depth limit : Nat) : Shape → Except FilterError Expression
  | .group kind cs => kind.node <$> convertAll cs (depth + 1) limit
  | .leaf c => .ok (.constraint c)

/-- What passing its checks says of a node: it lies within the limit, has no unknown member and
sets exactly one member, which gives its shape. -/
theorem shape_eq_ok {a : WhereArgs} {depth limit : Nat} {s : Shape}
    (h : a.shape depth limit = .ok s) :
    ¬depth > limit ∧ a.unknown = [] ∧ a.memberCount = 1 ∧
      ((∃ cs, a.andArg = some cs ∧ s = .group .and cs) ∨
        (∃ cs, a.andArg = none ∧ a.orArg = some cs ∧ s = .group .or cs) ∨
        (a.andArg = none ∧ a.orArg = none ∧ ∃ field args, a.fieldMembers = [(field, args)] ∧
          Shape.leaf <$> args.toConstraint field = .ok s)) := by
  by_cases hd : depth > limit
  · rw [shape, if_pos hd] at h
    cases h
  rw [shape, if_neg hd] at h
  split at h
  · cases h
  · next hu =>
    by_cases hc : a.memberCount ≠ 1
    · rw [if_pos hc] at h
      cases h
    rw [if_neg hc] at h
    refine ⟨hd, hu, not_not.1 hc, ?_⟩
    split at h
    · next cs hand =>
      cases h
      exact .inl ⟨cs, hand, rfl⟩
    · next cs hand hor =>
      cases h
      exact .inr (.inl ⟨cs, hand, hor, rfl⟩)
    · next field args tail hand hor hf =>
      have htail : tail = [] := by
        simpa [memberCount, hand, hor, hf] using hc
      exact .inr (.inr ⟨hand, hor, field, args, htail ▸ hf, h⟩)
    · cases h

theorem shape_args (kind : GroupKind) (cs : List WhereArgs) {depth limit : Nat}
    (hd : ¬depth > limit) : (kind.args cs).shape depth limit = .ok (.group kind cs) := by
  rw [shape, if_neg hd]
  cases kind <;> rfl

theorem shape_toArgs (c : Constraint) {depth limit : Nat} (hd : ¬depth > limit) :
    c.toArgs.shape depth limit = .ok (.leaf c) := by
  have hfield : (ofField (OperatorArgs.single c.op c.value.toJson) c.field).shape depth limit =
      .leaf <$> (OperatorArgs.single c.op c.value.toJson).toConstraint c.field := by
    rw [shape, if_neg hd]
    cases c.field <;> rfl
  rw [Constraint.toArgs, hfield, OperatorArgs.toConstraint_single]
  rfl

theorem fieldMembers_eq_nil {a : WhereArgs} : a.fieldMembers = [] ↔
    a.bucketIdArg = none ∧ a.bucketNameArg = none ∧ a.nameArg = none ∧ a.kindArg = none ∧
      a.contentTypeArg = none ∧ a.metadataArg = none := by
  simp [fieldMembers, and_assoc]

theorem eq_of_fieldMembers_eq_nil {a : WhereArgs} (hu : a.unknown = []) (hf : a.fieldMembers = []) :
    a = { andArg := a.andArg, orArg := a.orArg } := by
  obtain ⟨andArg, orArg, b, bn, n, k, ct, m, unknown⟩ := a
  obtain ⟨rfl, rfl, rfl, rfl, rfl, rfl⟩ := fieldMembers_eq_nil.1 hf
  cases hu
  rfl

theorem eq_ofField {a : WhereArgs} {field : FieldId} {args : OperatorArgs}
    (hand : a.andArg = none) (hor : a.orArg = none) (hu : a.unknown = [])
    (hf : a.fieldMembers = [(field, args)]) : a = ofField args field := by
  obtain ⟨andArg, orArg, b, bn, n, k, ct, m, unknown⟩ := a
  cases hand
  cases hor
  cases hu
  -- each of the six field members set or not: exactly one is, with these arguments
  rcases b with _ | b <;> rcases bn with _ | bn <;> rcases n with _ | n <;> rcases k with _ | k <;>
    rcases ct with _ | ct <;> rcases m with _ | ⟨key, m⟩ <;>
    simp only [fieldMembers, List.filterMap_cons, List.filterMap_nil, Option.map_none,
      Option.map_some, Option.toList_none, Option.toList_some, List.nil_append, List.cons_append,
      List.cons.injEq, Prod.mk.injEq, reduceCtorEq, and_false, List.append_nil] at hf <;>
    obtain ⟨⟨rfl, rfl⟩, -⟩ := hf <;> rfl

theorem eq_args_of_shape {a : WhereArgs} {depth limit : Nat} {kind : GroupKind}
    {cs : List WhereArgs} (h : a.shape depth limit = .ok (.group kind cs)) :
    ¬depth > limit ∧ a = kind.args cs := by
  obtain ⟨hd, hu, hc, ⟨cs', hand, hs⟩ | ⟨cs', hand, hor, hs⟩ | ⟨_, _, _, _, _, hs⟩⟩ :=
    shape_eq_ok h
  · cases hs
    have hrest : a.orArg = none ∧ a.fieldMembers = [] := by
      cases hor : a.orArg with
      | some _ =>
        simp only [memberCount, hand, hor, Option.isSome_some, if_true] at hc
        omega
      | none => simpa [memberCount, hand, hor] using hc
    refine ⟨hd, ?_⟩
    rw [eq_of_fieldMembers_eq_nil hu hrest.2, hand, hrest.1]
    rfl
  · cases hs
    have hf : a.fieldMembers = [] := by
      simpa [memberCount, hand, hor] using hc
    refine ⟨hd, ?_⟩
    rw [eq_of_fieldMembers_eq_nil hu hf, hand, hor]
    rfl
  · obtain ⟨c, -, hc'⟩ := map_eq_ok hs
    cases hc'

theorem eq_toArgs_of_shape {a : WhereArgs} {depth limit : Nat} {c : Constraint}
    (hc : a.OperandsCanonical) (h : a.shape depth limit = .ok (.leaf c)) :
    ¬depth > limit ∧ a = c.toArgs := by
  obtain ⟨hd, hu, -, ⟨cs, -, hs⟩ | ⟨cs, -, -, hs⟩ | ⟨hand, hor, field, args, hf, hs⟩⟩ :=
    shape_eq_ok h
  · cases hs
  · cases hs
  · obtain ⟨c', hc', hcc⟩ := map_eq_ok hs
    cases hcc
    have hargs : ∀ m ∈ args.members, ∀ v ∈ m.2.operandValues, v.NumberCanonical :=
      hc (field, args) (by simp [hf])
    obtain ⟨hfield, hsingle⟩ := OperatorArgs.eq_single_of_toConstraint hargs hc'
    refine ⟨hd, ?_⟩
    rw [eq_ofField hand hor hu hf, Constraint.toArgs, hfield, ← hsingle]

/-- Converting a node is checking it, then converting its children if it is a group. -/
theorem convert_eq_shape (a : WhereArgs) (depth limit : Nat) :
    a.convert depth limit = a.shape depth limit >>= Shape.convert depth limit := by
  obtain ⟨andArg, orArg, b, bn, n, k, ct, m, unknown⟩ := a
  rw [convert.eq_def, shape]
  dsimp only
  by_cases hd : depth > limit
  · simp only [hd, if_true]
    rfl
  · simp only [hd, if_false]
    cases unknown with
    | cons m ms => rfl
    | nil =>
      dsimp only
      by_cases hc : memberCount ⟨andArg, orArg, b, bn, n, k, ct, m, []⟩ ≠ 1
      · rw [if_pos hc, if_pos hc]
        rfl
      · rw [if_neg hc, if_neg hc]
        rcases andArg with _ | cs <;> rcases orArg with _ | cs'
        · cases fieldMembers ⟨none, none, b, bn, n, k, ct, m, []⟩ with
          | nil => rfl
          | cons fa _ =>
            obtain ⟨field, args⟩ := fa
            dsimp only
            cases args.toConstraint field <;> rfl
        all_goals rfl

theorem convertAll_nil (depth limit : Nat) : convertAll [] depth limit = .ok [] := by
  rw [convertAll.eq_def]

theorem convertAll_cons (c : WhereArgs) (cs : List WhereArgs) (depth limit : Nat) :
    convertAll (c :: cs) depth limit = (do
      let e ← c.convert depth limit
      let es ← convertAll cs depth limit
      pure (e :: es)) := by
  rw [convertAll.eq_def]

theorem children_args (kind : GroupKind) (cs : List WhereArgs) : (kind.args cs).children = cs := by
  cases kind <;> rfl

/-! ### The error of a payload -/

/-- The error for the first check a node fails at its depth, if any. -/
def nodeError (limit : Nat) (n : WhereArgs × Nat) : Option FilterError :=
  errorOf (n.1.shape n.2 limit)

/-- The error of the first node in pre-order that fails its checks, if any; the root is at
depth 1. -/
def firstError (a : WhereArgs) (limit : Nat) : Option FilterError :=
  (a.nodes 1).findSome? (nodeError limit)

theorem errorOf_convertAll {cs : List WhereArgs} {depth limit : Nat}
    (ih : ∀ c ∈ cs, errorOf (c.convert depth limit) = (c.nodes depth).findSome? (nodeError limit)) :
    errorOf (convertAll cs depth limit) = (nodesAll depth cs).findSome? (nodeError limit) := by
  induction cs with
  | nil =>
    rw [convertAll_nil]
    rfl
  | cons c cs ihs =>
    rw [convertAll_cons, nodesAll, List.findSome?_append, ← ih c List.mem_cons_self,
      ← ihs fun c' hc' => ih c' (List.mem_cons_of_mem c hc')]
    cases c.convert depth limit with
    | error e => rfl
    | ok e => cases convertAll cs depth limit <;> rfl

/-- Converting a payload fails with the error of its first node in pre-order that fails its
checks; the children of a failing node are never looked at. -/
theorem errorOf_convert (limit : Nat) (a : WhereArgs) :
    ∀ depth, errorOf (a.convert depth limit) = (a.nodes depth).findSome? (nodeError limit) := by
  induction a using induction_children with
  | step a ih =>
    intro depth
    rw [convert_eq_shape, nodes_eq, List.findSome?_cons]
    cases hs : a.shape depth limit with
    | error err =>
      have hn : nodeError limit (a, depth) = some err := by
        simp [nodeError, hs, errorOf]
      simp only [hn]
      rfl
    | ok s =>
      have hn : nodeError limit (a, depth) = none := by
        simp [nodeError, hs, errorOf]
      simp only [hn]
      cases s with
      | group kind cs =>
        obtain ⟨-, rfl⟩ := eq_args_of_shape hs
        rw [children_args] at ih ⊢
        show errorOf (kind.node <$> convertAll cs (depth + 1) limit) = _
        rw [errorOf_map]
        exact errorOf_convertAll fun c hc => ih c hc (depth + 1)
      | leaf c =>
        obtain ⟨-, -, -, ⟨cs, -, hs'⟩ | ⟨cs, -, -, hs'⟩ | ⟨hand, hor, -⟩⟩ := shape_eq_ok hs
        · cases hs'
        · cases hs'
        · have hc : a.children = [] := by
            simp [children, hand, hor]
          rw [hc]
          rfl

/-! ### Payloads that convert -/

theorem eq_toArgsAll_of_convertAll {cs : List WhereArgs} {depth limit : Nat}
    {es : List Expression}
    (ih : ∀ c ∈ cs, ∀ e, (∀ n ∈ c.nodes depth, n.1.OperandsCanonical) →
      c.convert depth limit = .ok e → c = e.toArgs ∧ ∀ n ∈ e.nodes depth, n.2 ≤ limit)
    (hc : ∀ n ∈ nodesAll depth cs, n.1.OperandsCanonical)
    (h : convertAll cs depth limit = .ok es) :
    cs = Expression.toArgsAll es ∧ ∀ n ∈ Expression.nodesAll depth es, n.2 ≤ limit := by
  induction cs generalizing es with
  | nil =>
    rw [convertAll_nil] at h
    cases h
    exact ⟨rfl, fun n hn => absurd hn List.not_mem_nil⟩
  | cons c cs ihs =>
    rw [convertAll_cons] at h
    obtain ⟨e, he, h⟩ := bind_eq_ok h
    obtain ⟨es', hes', h⟩ := bind_eq_ok h
    cases h
    rw [nodesAll] at hc
    obtain ⟨rfl, hd⟩ := ih c List.mem_cons_self e (fun n hn => hc n (List.mem_append_left _ hn)) he
    obtain ⟨rfl, hds⟩ := ihs (fun c' hc' => ih c' (List.mem_cons_of_mem _ hc'))
      (fun n hn => hc n (List.mem_append_right _ hn)) hes'
    refine ⟨rfl, fun n hn => ?_⟩
    rw [Expression.nodesAll, List.mem_append] at hn
    exact hn.elim (hd n) (hds n)

/-- A payload that converts, its numbers in the reader's shape, is the payload of what it converts
to, and every node of that lies within the limit. -/
theorem eq_toArgs_of_convert (limit : Nat) (a : WhereArgs) :
    ∀ depth e, (∀ n ∈ a.nodes depth, n.1.OperandsCanonical) → a.convert depth limit = .ok e →
      a = e.toArgs ∧ ∀ n ∈ e.nodes depth, n.2 ≤ limit := by
  induction a using induction_children with
  | step a ih =>
    intro depth e hc h
    have hca : a.OperandsCanonical := hc (a, depth) (by simp [nodes_eq])
    rw [convert_eq_shape] at h
    obtain ⟨s, hs, hconv⟩ := bind_eq_ok h
    cases s with
    | leaf c =>
      obtain ⟨hd, rfl⟩ := eq_toArgs_of_shape hca hs
      cases hconv
      refine ⟨rfl, fun n hn => ?_⟩
      rw [Expression.nodes, List.mem_singleton] at hn
      subst hn
      exact Nat.not_lt.1 hd
    | group kind cs =>
      obtain ⟨hd, rfl⟩ := eq_args_of_shape hs
      have hconv : kind.node <$> convertAll cs (depth + 1) limit = .ok e := hconv
      obtain ⟨es, hes, rfl⟩ := map_eq_ok hconv
      rw [children_args] at ih
      have hcs : ∀ n ∈ nodesAll (depth + 1) cs, n.1.OperandsCanonical := fun n hn =>
        hc n (by rw [nodes_eq, children_args]; exact List.mem_cons_of_mem _ hn)
      obtain ⟨rfl, hdepths⟩ := eq_toArgsAll_of_convertAll (fun c hc' => ih c hc' (depth + 1)) hcs hes
      refine ⟨by cases kind <;> rfl, fun n hn => ?_⟩
      have hnodes : (kind.node es).nodes depth = (kind.node es, depth) :: Expression.nodesAll (depth + 1) es := by
        cases kind <;> rfl
      rw [hnodes, List.mem_cons] at hn
      rcases hn with rfl | hn
      · exact Nat.not_lt.1 hd
      · exact hdepths n hn

theorem convert_args (kind : GroupKind) {cs : List WhereArgs} {es : List Expression}
    {depth limit : Nat} (hd : ¬depth > limit) (h : convertAll cs (depth + 1) limit = .ok es) :
    (kind.args cs).convert depth limit = .ok (kind.node es) := by
  rw [convert_eq_shape, shape_args kind cs hd]
  show kind.node <$> convertAll cs (depth + 1) limit = _
  rw [h]
  rfl

mutual

theorem convert_toArgs (limit : Nat) : ∀ (e : Expression) (depth : Nat),
    (∀ n ∈ e.nodes depth, n.2 ≤ limit) → e.toArgs.convert depth limit = .ok e
  | .constraint c, depth, hd => by
    have hc : ¬depth > limit := Nat.not_lt.2 (hd _ List.mem_cons_self)
    rw [Expression.toArgs, convert_eq_shape, shape_toArgs c hc]
    rfl
  | .and es, depth, hd =>
    convert_args .and (Nat.not_lt.2 (hd _ List.mem_cons_self))
      (convertAll_toArgsAll limit es (depth + 1) fun n hn => hd n (List.mem_cons_of_mem _ hn))
  | .or es, depth, hd =>
    convert_args .or (Nat.not_lt.2 (hd _ List.mem_cons_self))
      (convertAll_toArgsAll limit es (depth + 1) fun n hn => hd n (List.mem_cons_of_mem _ hn))

theorem convertAll_toArgsAll (limit : Nat) : ∀ (es : List Expression) (depth : Nat),
    (∀ n ∈ Expression.nodesAll depth es, n.2 ≤ limit) →
      convertAll (Expression.toArgsAll es) depth limit = .ok es
  | [], depth, _ => convertAll_nil depth limit
  | e :: es, depth, hd => by
    rw [Expression.toArgsAll, convertAll_cons,
      convert_toArgs limit e depth fun n hn => hd n (List.mem_append_left _ hn),
      convertAll_toArgsAll limit es depth fun n hn => hd n (List.mem_append_right _ hn)]
    rfl

end

/-! ### Encodings hold their numbers in the reader's shape -/

theorem operandsCanonical_args (kind : GroupKind) (cs : List WhereArgs) :
    (kind.args cs).OperandsCanonical := by
  intro fa hfa
  cases kind <;> exact absurd hfa List.not_mem_nil

theorem operandsCanonical_nodes_args (kind : GroupKind) {cs : List WhereArgs} {depth : Nat}
    (h : ∀ n ∈ nodesAll (depth + 1) cs, n.1.OperandsCanonical) :
    ∀ n ∈ (kind.args cs).nodes depth, n.1.OperandsCanonical := by
  rw [nodes_eq, children_args]
  intro n hn
  rcases List.mem_cons.1 hn with rfl | hn
  · exact operandsCanonical_args kind cs
  · exact h n hn

mutual

theorem operandsCanonical_toArgs : ∀ (e : Expression) (depth : Nat),
    ∀ n ∈ e.toArgs.nodes depth, n.1.OperandsCanonical
  | .constraint c, depth => by
    have hc : c.toArgs.children = [] := by
      rw [Constraint.toArgs]
      cases c.field <;> rfl
    intro n hn
    rw [Expression.toArgs, nodes_eq, hc] at hn
    rcases List.mem_cons.1 hn with rfl | hn
    · exact operandsCanonical_constraint c
    · exact absurd hn List.not_mem_nil
  | .and es, depth => operandsCanonical_nodes_args .and (operandsCanonical_toArgsAll es (depth + 1))
  | .or es, depth => operandsCanonical_nodes_args .or (operandsCanonical_toArgsAll es (depth + 1))

theorem operandsCanonical_toArgsAll : ∀ (es : List Expression) (depth : Nat),
    ∀ n ∈ nodesAll depth (Expression.toArgsAll es), n.1.OperandsCanonical
  | [], _ => fun _ hn => absurd hn List.not_mem_nil
  | e :: es, depth => by
    intro n hn
    rw [Expression.toArgsAll, nodesAll, List.mem_append] at hn
    exact hn.elim (operandsCanonical_toArgs e depth n) (operandsCanonical_toArgsAll es depth n)

end

end WhereArgs

/-! ### Converted expressions compile within the depth limit -/

theorem Constraint.valueError?_ne_depth (c : Constraint) (depth l : Nat) :
    c.valueError? ≠ some (.depthLimitExceeded depth l) := by
  unfold Constraint.valueError?
  split_ifs <;> simp [Constraint.invalid]

theorem Constraint.violation_ne_depth (R : Registry) (c : Constraint) (depth l : Nat) :
    c.violation R ≠ some (.depthLimitExceeded depth l) := by
  have hleaf : c.leafError? ≠ some (.depthLimitExceeded depth l) := by
    unfold Constraint.leafError?
    by_cases hs : (!c.field.toKind.valueType.supports c.op) = true
    · simp [hs]
    · rw [if_neg hs]
      cases hv : c.valueError? with
      | some err => simpa [hv] using c.valueError?_ne_depth depth l
      | none => by_cases hk : c.field = .metadata "" <;> simp [hk, Constraint.invalid]
  unfold Constraint.violation
  split
  · simp
  · exact hleaf

theorem compile_ne_depthLimitExceeded {R : Registry} (hR : R.LeafOnly) (e : Expression)
    (journal : Journal) {limit : Nat} (hd : ∀ n ∈ e.nodes 1, n.2 ≤ limit) (depth l : Nat) :
    (compile ⟨limit⟩ R (some e) journal).1 ≠ .error (.depthLimitExceeded depth l) := by
  intro h
  have herr := compile_errorOf ⟨limit⟩ hR e journal
  rw [h] at herr
  obtain ⟨⟨e', d⟩, hn, hv⟩ := List.exists_of_findSome?_eq_some herr.symm
  have hdl : ¬d > limit := Nat.not_lt.2 (hd _ hn)
  simp only [Expression.nodeViolation, hdl, if_false] at hv
  cases e' with
  | constraint c => exact Constraint.violation_ne_depth R c depth l hv
  | and _ => cases hv
  | or _ => cases hv

/-! ### Conversion inverts the encoding -/

/-- Converting a payload inverts the encoding of expressions. A payload converts to `e` exactly
when it is the payload of `e` and every node of `e` lies within the limit, the root at depth 1
(numbers taken in the reader's shape, which every encoding has); what it converts to then
compiles under the same limit, with a registry of built-in handlers, without a depth error; and a payload that does not convert fails
with the error of its first node in pre-order that fails its checks. -/
theorem toExpression_inverts_toArgs (a : WhereArgs) (limit : Nat) (ha : a.Canonical) :
    (∀ e, a.toExpression limit = .ok e ↔ a = e.toArgs ∧ ∀ n ∈ e.nodes 1, n.2 ≤ limit) ∧
    (∀ e : Expression, e.toArgs.Canonical) ∧
    (∀ e, a.toExpression limit = .ok e → ∀ (R : Registry), R.LeafOnly →
      ∀ (journal : Journal) (depth l : Nat),
        (compile ⟨limit⟩ R (some e) journal).1 ≠ .error (.depthLimitExceeded depth l)) ∧
    (∀ err, a.toExpression limit = .error err ↔ a.firstError limit = some err) := by
  have hok : ∀ e, a.toExpression limit = .ok e → a = e.toArgs ∧ ∀ n ∈ e.nodes 1, n.2 ≤ limit :=
    fun e h => WhereArgs.eq_toArgs_of_convert limit a 1 e ha h
  refine ⟨fun e => ⟨hok e, ?_⟩, fun e => WhereArgs.operandsCanonical_toArgs e 1,
    fun e h R hR journal depth l => compile_ne_depthLimitExceeded hR e journal (hok e h).2 depth l,
    fun err => ?_⟩
  · rintro ⟨rfl, hd⟩
    exact WhereArgs.convert_toArgs limit e 1 hd
  · rw [← errorOf_eq_some, WhereArgs.toExpression, WhereArgs.errorOf_convert]
    rfl

/-- A payload of three levels: the nested sample filter beside a list of identifiers, one of
them negative. -/
def Sample.mixedPayload : WhereArgs :=
  (Expression.or [Sample.nestedExpression,
    .constraint ⟨.bucketId, .isIn, .list [.id 7, .id (-2)]⟩]).toArgs

theorem toExpression_inverts_mixedPayload :
    Sample.mixedPayload.Canonical ∧
    ((∀ e, Sample.mixedPayload.toExpression 4 = .ok e ↔
        Sample.mixedPayload = e.toArgs ∧ ∀ n ∈ e.nodes 1, n.2 ≤ 4) ∧
      (∀ e : Expression, e.toArgs.Canonical) ∧
      (∀ e, Sample.mixedPayload.toExpression 4 = .ok e → ∀ (R : Registry), R.LeafOnly →
        ∀ (journal : Journal) (depth l : Nat),
          (compile ⟨4⟩ R (some e) journal).1 ≠ .error (.depthLimitExceeded depth l)) ∧
      (∀ err, Sample.mixedPayload.toExpression 4 = .error err ↔
        Sample.mixedPayload.firstError 4 = some err)) :=
  ⟨by decide, toExpression_inverts_toArgs Sample.mixedPayload 4 (by decide)⟩

end CatalogQuery
