import CatalogQuery.Filter.Handler
import CatalogQuery.Json.Write

/-!
# The filter compiler

`Registry.compileInto` compiles an expression into a specification on a given join graph. It
works through a list of pending steps instead of recursing on the tree: entering a node either
compiles a constraint through the registry or, for a group, schedules its children (first child
first) and then a step that combines as many finished specifications into the group. Every node
is entered at its depth, counting the root as 1, and a node deeper than the limit is refused.

`compile` starts from an empty graph; with no expression it gives the default specification,
which joins nothing and accepts every row.
-/

namespace CatalogQuery

/-- The limits a compiler works under. -/
structure CompilerConfig where
  maxDepth : Nat
  deriving DecidableEq, Repr

/-- The default nesting limit of 60. -/
def CompilerConfig.default : CompilerConfig := ⟨60⟩

/-- A compiled filter: its specification and the joins its predicate reads. -/
structure CompiledFilter where
  spec : Specification
  graph : JoinGraph

namespace CompiledFilter

/-- The filter that accepts every row and joins nothing. -/
def passThrough : CompiledFilter := ⟨.default, JoinGraph.empty⟩

/-- The predicate of the filter. -/
def predicate (f : CompiledFilter) : Predicate := f.spec.predicate

/-- Whether rows must be made distinct. -/
def needsDistinct (f : CompiledFilter) : Bool := f.graph.needsDistinct

/-- The filter as JSON: its joins and its predicate. -/
def toJson (f : CompiledFilter) : Json :=
  .object [("joins", f.graph.toJson), ("predicate", f.predicate.toJson)]

end CompiledFilter

/-- The two kinds of group. -/
inductive GroupKind where
  | and
  | or
  deriving DecidableEq, Repr

/-- A pending step of the compiler. -/
inductive Step where
  /-- Compile this node, found at this depth. -/
  | enter (e : Expression) (depth : Nat)
  /-- Group this many finished specifications, the most recent last. -/
  | combine (kind : GroupKind) (arity : Nat)

mutual

/-- The number of nodes of an expression. -/
def Expression.size : Expression → Nat
  | .constraint _ => 1
  | .and cs | .or cs => 1 + Expression.sizeAll cs

/-- The number of nodes of a list of expressions. -/
def Expression.sizeAll : List Expression → Nat
  | [] => 0
  | e :: es => e.size + Expression.sizeAll es

end

/-- What is left to do for a step: twice the nodes of an entered tree, one for a combination. -/
def Step.weight : Step → Nat
  | .enter e _ => 2 * e.size
  | .combine .. => 1

/-- The work left on a list of steps: the sum of their weights. -/
def Step.weightAll : List Step → Nat
  | [] => 0
  | s :: rest => s.weight + Step.weightAll rest

/-- The work of two lists of steps adds up. -/
theorem Step.weightAll_append (xs ys : List Step) :
    Step.weightAll (xs ++ ys) = Step.weightAll xs + Step.weightAll ys := by
  induction xs with
  | nil => simp [Step.weightAll]
  | cons x xs ih =>
    simp only [List.cons_append, Step.weightAll, ih]
    omega

/-- Entering the children of a group costs twice their nodes. -/
theorem Step.weightAll_enter (cs : List Expression) (d : Nat) :
    Step.weightAll (cs.map (Step.enter · d)) = 2 * Expression.sizeAll cs := by
  induction cs with
  | nil => simp [Step.weightAll, Expression.sizeAll]
  | cons c cs ih =>
    simp only [List.map_cons, Step.weightAll, ih, Step.weight, Expression.sizeAll]
    omega

/-- The specification of a group of finished children. -/
def GroupKind.build : GroupKind → List Specification → Specification
  | .and, cs => .and cs
  | .or, cs => .or cs

/-- The group's label. -/
def GroupKind.label : GroupKind → String
  | .and => "and"
  | .or => "or"

namespace Registry

/-- Works through pending steps; `done` holds finished specifications, the most recent first. -/
def runSteps (r : Registry) (limit : Nat) (steps : List Step) (done : List Specification) :
    BuildM Specification :=
  match steps with
  | [] =>
    match done with
    | s :: _ => pure s
    | [] => throw (.malformedExpression "expression produced no specification")
  | .enter e depth :: rest => do
    if depth > limit then throw (.depthLimitExceeded depth limit)
    match e with
    | .constraint c =>
      let s ← r.dispatch c
      r.runSteps limit rest (s :: done)
    | .and cs =>
      BuildM.log .trace ("and group with " ++ toString cs.length ++ " children at depth " ++
        toString depth)
      r.runSteps limit (cs.map (Step.enter · (depth + 1)) ++ .combine .and cs.length :: rest) done
    | .or cs =>
      BuildM.log .trace ("or group with " ++ toString cs.length ++ " children at depth " ++
        toString depth)
      r.runSteps limit (cs.map (Step.enter · (depth + 1)) ++ .combine .or cs.length :: rest) done
  | .combine kind arity :: rest =>
    r.runSteps limit rest (kind.build (done.take arity).reverse :: done.drop arity)
termination_by Step.weightAll steps
decreasing_by
  all_goals simp [Step.weightAll, Step.weight, Expression.size, Step.weightAll_append,
    Step.weightAll_enter]
  all_goals omega

/-- Compiles an expression on a join graph, which keeps the joins made even if compiling fails. -/
def compileInto (r : Registry) (limit : Nat) (e : Expression) : BuildM Specification :=
  r.runSteps limit [.enter e 1] []

end Registry

/-- Compiles an optional expression from an empty join graph, writing records to `journal`. -/
def compile (config : CompilerConfig) (r : Registry) (e? : Option Expression) (journal : Journal) :
    Except FilterError CompiledFilter × Journal :=
  match e? with
  | none =>
    (.ok .passThrough,
      journal.push ⟨.debug, "no filter supplied, using the default specification"⟩)
  | some e =>
    match (r.compileInto config.maxDepth e).runFrom JoinGraph.empty journal with
    | (.ok spec, b) =>
      let f : CompiledFilter := ⟨spec, b.graph⟩
      (.ok f, b.journal.push ⟨.debug, "compiled filter: " ++ f.toJson.render⟩)
    | (.error err, b) => (.error err, b.journal)

end CatalogQuery
