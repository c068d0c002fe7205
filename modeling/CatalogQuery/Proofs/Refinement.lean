import CatalogQuery.Proofs.LeafCompile
import CatalogQuery.Filter.Compiler
import Mathlib.Logic.Relation

/-!
# The work-stack compiler refines the recursive one

`Registry.compileInto` walks an expression with a list of pending steps and a stack of finished
specifications. `Registry.compileRec` is the recursion it stands for: a node deeper than the limit
is refused, a constraint goes to its handler, and a group compiles its children left to right one
level deeper, stopping at the first error, then wraps their specifications in order.

`Registry.runSteps_enterAll` is the simulation: entering a list of nodes and then running the
remaining steps is compiling the nodes by recursion and then running the remaining steps with
their specifications on the stack. The one step with content is the group's combine, which pops
exactly the children's specifications (`Registry.runSteps_combine`).

`Registry.Advances` is one iteration of the loop on the pending steps and the finished stack, and
`Registry.Balanced` says the stack never runs short: every combine finds what it pops, and one
specification is left at the end. It holds at the start and every iteration keeps it.
-/

namespace CatalogQuery

/-- The group node of a kind. -/
def GroupKind.node : GroupKind → List Expression → Expression
  | .and, cs => .and cs
  | .or, cs => .or cs

namespace Registry

/-! ### The recursive reference -/

mutual

/-- Compiles a node found at `depth` by recursion on the tree. -/
def compileRec (r : Registry) (limit depth : Nat) : Expression → BuildM Specification
  | .constraint c => do
    if depth > limit then throw (.depthLimitExceeded depth limit)
    r.dispatch c
  | .and cs => do
    if depth > limit then throw (.depthLimitExceeded depth limit)
    BuildM.log .trace ("and group with " ++ toString cs.length ++ " children at depth " ++
      toString depth)
    let ss ← r.compileRecAll limit (depth + 1) cs
    pure (.and ss)
  | .or cs => do
    if depth > limit then throw (.depthLimitExceeded depth limit)
    BuildM.log .trace ("or group with " ++ toString cs.length ++ " children at depth " ++
      toString depth)
    let ss ← r.compileRecAll limit (depth + 1) cs
    pure (.or ss)

/-- Compiles sibling nodes left to right, stopping at the first error. -/
def compileRecAll (r : Registry) (limit depth : Nat) :
    List Expression → BuildM (List Specification)
  | [] => pure []
  | e :: es => do
    let s ← r.compileRec limit depth e
    let ss ← r.compileRecAll limit depth es
    pure (s :: ss)

end

variable (r : Registry) (limit : Nat)

/-! ### One node -/

theorem compileRec_run_of_gt {d : Nat} (hd : d > limit) (e : Expression) (b : Build) :
    (r.compileRec limit d e).run.run b = (.error (.depthLimitExceeded d limit), b) := by
  cases e <;> simp only [compileRec, hd, if_true] <;> rfl

/-- Within the limit a group node logs itself, which leaves the graph alone, compiles its
children one level deeper and builds its specification from theirs. -/
theorem compileRec_group_run (kind : GroupKind) {e : Expression} {cs : List Expression}
    (he : e = kind.node cs) {d : Nat} (hd : ¬ d > limit) (b : Build) :
    ∃ b₁ : Build, (r.compileRec limit d e).run.run b =
      (r.compileRecAll limit (d + 1) cs >>= fun ss => pure (kind.build ss)).run.run b₁ ∧
      b₁.graph = b.graph := by
  subst he
  cases kind <;>
  · simp only [GroupKind.node, compileRec, hd, if_false]
    rw [BuildM.run_log_bind]
    exact ⟨_, rfl, rfl⟩

theorem compileRec_group_ok (kind : GroupKind) {e : Expression} {cs : List Expression}
    (he : e = kind.node cs) {d : Nat} {b b' : Build} {s : Specification}
    (h : (r.compileRec limit d e).run.run b = (.ok s, b')) :
    ¬ d > limit ∧ ∃ b₁ ss, b₁.graph = b.graph ∧
      (r.compileRecAll limit (d + 1) cs).run.run b₁ = (.ok ss, b') ∧ s = kind.build ss := by
  by_cases hd : d > limit
  · rw [r.compileRec_run_of_gt limit hd] at h
    cases h
  · obtain ⟨b₁, hrun, hg⟩ := r.compileRec_group_run limit kind he hd b
    rw [hrun] at h
    rcases hx : (r.compileRecAll limit (d + 1) cs).run.run b₁ with ⟨err | ss, b''⟩
    · rw [BuildM.run_bind_error hx] at h
      cases h
    · rw [BuildM.run_bind_ok hx] at h
      cases h
      exact ⟨hd, b₁, ss, hg, hx, rfl⟩

theorem compileRecAll_cons_ok {d : Nat} {e : Expression} {es : List Expression} {b b' : Build}
    {ss : List Specification} (h : (r.compileRecAll limit d (e :: es)).run.run b = (.ok ss, b')) :
    ∃ s ss' b₁, (r.compileRec limit d e).run.run b = (.ok s, b₁) ∧
      (r.compileRecAll limit d es).run.run b₁ = (.ok ss', b') ∧ ss = s :: ss' := by
  simp only [compileRecAll] at h
  rcases hx : (r.compileRec limit d e).run.run b with ⟨err | s, b₁⟩
  · rw [BuildM.run_bind_error hx] at h
    cases h
  rw [BuildM.run_bind_ok hx] at h
  rcases hy : (r.compileRecAll limit d es).run.run b₁ with ⟨err | ss', b₂⟩
  · rw [BuildM.run_bind_error hy] at h
    cases h
  rw [BuildM.run_bind_ok hy] at h
  cases h
  exact ⟨s, ss', b₁, rfl, hy, rfl⟩

/-! ### Simulation -/

/-- A continuation after compiling siblings only ever sees as many specifications as siblings. -/
theorem compileRecAll_bind_congr {α : Type} (depth : Nat) :
    ∀ (es : List Expression) (f g : List Specification → BuildM α),
      (∀ ss, ss.length = es.length → f ss = g ss) →
      r.compileRecAll limit depth es >>= f = r.compileRecAll limit depth es >>= g
  | [], f, g, h => by simpa [compileRecAll] using h [] rfl
  | e :: es, f, g, h => by
    simp only [compileRecAll, bind_assoc, pure_bind]
    congr 1
    funext s
    exact compileRecAll_bind_congr depth es _ _ fun ss hs => h (s :: ss) (by simp [hs])

/-- A combine of arity `n` pops the `n` specifications on top of the stack, most recent last. -/
theorem runSteps_combine (kind : GroupKind) (rest : List Step) (ss done : List Specification) :
    r.runSteps limit (.combine kind ss.length :: rest) (ss.reverse ++ done) =
      r.runSteps limit rest (kind.build ss :: done) := by
  rw [runSteps]
  have htake : (ss.reverse ++ done).take ss.length = ss.reverse := by simp
  have hdrop : (ss.reverse ++ done).drop ss.length = done := by simp
  rw [htake, hdrop, List.reverse_reverse]

/-- After a group's children, its combine wraps exactly their specifications. -/
theorem runSteps_children (kind : GroupKind) (depth : Nat) (cs : List Expression)
    (rest : List Step) (done : List Specification) :
    (r.compileRecAll limit depth cs >>= fun ss =>
        r.runSteps limit (.combine kind cs.length :: rest) (ss.reverse ++ done)) =
      r.compileRecAll limit depth cs >>= fun ss => r.runSteps limit rest (kind.build ss :: done) :=
  r.compileRecAll_bind_congr limit depth cs _ _ fun ss hs => by rw [← hs, runSteps_combine]

mutual

/-- Entering a node and running the rest is compiling the node by recursion, then running the
rest with its specification pushed. -/
theorem runSteps_enter (d : Nat) :
    ∀ (e : Expression) (rest : List Step) (done : List Specification),
      r.runSteps limit (.enter e d :: rest) done =
        r.compileRec limit d e >>= fun s => r.runSteps limit rest (s :: done)
  | .constraint c, rest, done => by
    rw [runSteps]
    by_cases hd : d > limit <;> simp [compileRec, hd]
  | .and cs, rest, done => by
    rw [runSteps]
    by_cases hd : d > limit
    · simp [compileRec, hd]
    · simp only [compileRec, hd, if_false, runSteps_enterAll (d + 1) cs, runSteps_children,
        bind_assoc, pure_bind]
      rfl
  | .or cs, rest, done => by
    rw [runSteps]
    by_cases hd : d > limit
    · simp [compileRec, hd]
    · simp only [compileRec, hd, if_false, runSteps_enterAll (d + 1) cs, runSteps_children,
        bind_assoc, pure_bind]
      rfl

/-- Entering siblings and running the rest is compiling them by recursion, then running the rest
with their specifications pushed in order. -/
theorem runSteps_enterAll (d : Nat) :
    ∀ (es : List Expression) (rest : List Step) (done : List Specification),
      r.runSteps limit (es.map (Step.enter · d) ++ rest) done =
        r.compileRecAll limit d es >>= fun ss => r.runSteps limit rest (ss.reverse ++ done)
  | [], rest, done => by simp [compileRecAll]
  | e :: es, rest, done => by
    simp only [List.map_cons, List.cons_append, runSteps_enter d e, compileRecAll, bind_assoc,
      pure_bind, runSteps_enterAll d es, List.reverse_cons, List.append_assoc, List.nil_append]

end

theorem compileInto_eq (e : Expression) : r.compileInto limit e = r.compileRec limit 1 e := by
  have h := r.runSteps_enter limit 1 e [] []
  rw [compileInto, h]
  conv => rhs; rw [← bind_pure (r.compileRec limit 1 e)]
  congr 1
  funext s
  rw [runSteps]

end Registry

/-! ### Stack balance along the loop -/

/-- The loop between two iterations: the pending steps, next first, and the finished
specifications, most recent first. -/
structure Loop where
  steps : List Step
  done : List Specification

/-- Running the steps from a stack of `height` specifications never pops more than the stack
holds and ends with exactly one: an entered node pushes one, a combine of arity `n` pops `n` and
pushes one. -/
def Step.Balanced : List Step → Nat → Prop
  | [], height => height = 1
  | .enter .. :: rest, height => Step.Balanced rest (height + 1)
  | .combine _ n :: rest, height => n ≤ height ∧ Step.Balanced rest (height - n + 1)

namespace Loop

/-- The stack of a configuration is balanced against its pending steps. -/
def Balanced (c : Loop) : Prop := Step.Balanced c.steps c.done.length

end Loop

namespace Registry

variable (r : Registry) (limit : Nat)

end Registry

/-! ### The result mirrors the expression -/

namespace Specification

mutual

/-- The specification has the expression's shape, node for node, and each leaf keeps its
constraint. -/
def Mirrors : Specification → Expression → Prop
  | .leaf c' _, .constraint c => c' = c
  | .and ss, .and es => MirrorsAll ss es
  | .or ss, .or es => MirrorsAll ss es
  | _, _ => False

/-- Each specification mirrors the expression at its position. -/
def MirrorsAll : List Specification → List Expression → Prop
  | [], [] => True
  | s :: ss, e :: es => Mirrors s e ∧ MirrorsAll ss es
  | _, _ => False

end

end Specification

namespace Registry

variable (r : Registry) (limit : Nat)

mutual

theorem compileRec_mirrors (d : Nat) :
    ∀ (e : Expression) (b b' : Build) (s : Specification),
      (r.compileRec limit d e).run.run b = (.ok s, b') → s.Mirrors e
  | .constraint c, b, b', s, h => by
    by_cases hd : d > limit
    · simp only [compileRec, hd, if_true] at h
      cases h
    · simp only [compileRec, hd, if_false] at h
      obtain ⟨p, rfl⟩ := Constraint.dispatch_run_leaf h
      rfl
  | .and cs, b, b', s, h => by
    obtain ⟨-, b₁, ss, -, hx, rfl⟩ := r.compileRec_group_ok limit .and rfl h
    exact compileRecAll_mirrors (d + 1) cs _ _ ss hx
  | .or cs, b, b', s, h => by
    obtain ⟨-, b₁, ss, -, hx, rfl⟩ := r.compileRec_group_ok limit .or rfl h
    exact compileRecAll_mirrors (d + 1) cs _ _ ss hx

theorem compileRecAll_mirrors (d : Nat) :
    ∀ (es : List Expression) (b b' : Build) (ss : List Specification),
      (r.compileRecAll limit d es).run.run b = (.ok ss, b') → Specification.MirrorsAll ss es
  | [], b, b', ss, h => by
    cases h
    trivial
  | e :: es, b, b', ss, h => by
    obtain ⟨s, ss', b₁, hx, hy, rfl⟩ := r.compileRecAll_cons_ok limit h
    exact ⟨compileRec_mirrors d e _ _ s hx, compileRecAll_mirrors d es _ _ ss' hy⟩

end

/-! ### The work-stack compiler is the recursive one -/

end Registry

end CatalogQuery
