import CatalogQuery.Filter.Join

/-!
# Compilation state

Compiling a filter grows a join graph and writes log records. `BuildM` threads both and may
fail with a `FilterError`; a failure keeps the graph and the records made before it, so a caller
sharing a graph sees the joins that earlier leaves created.
-/

namespace CatalogQuery

/-- The join graph being grown and the records written so far. -/
structure Build where
  graph : JoinGraph
  journal : Journal

/-- A compilation step. -/
abbrev BuildM := ExceptT FilterError (StateM Build)

namespace BuildM

/-- Writes a log record. -/
def log (level : LogLevel) (message : String) : BuildM Unit :=
  modify fun b => { b with journal := b.journal.push ⟨level, message⟩ }

/-- The join of a relation, created with the joins it is reached through if missing. -/
def join (r : Relation) : BuildM JoinHandle := do
  let b ← get
  let (h, g, logs) := b.graph.join r
  set { b with graph := g, journal := logs.foldl Array.push b.journal }
  return h

/-- The join of the relation of a name, created as `join` does; a name of no relation is refused
with an unknown-relation error before the graph is looked at. -/
def joinByName (name : String) : BuildM JoinHandle :=
  match Relation.parse name with
  | .ok r => join r
  | .error e => throw e

/-- Runs a step from a graph and a journal, returning its outcome and the final state. -/
def runFrom {α : Type} (x : BuildM α) (g : JoinGraph) (journal : Journal) :
    Except FilterError α × Build :=
  (x.run).run ⟨g, journal⟩

end BuildM

end CatalogQuery
