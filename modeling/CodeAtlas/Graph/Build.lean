import CodeAtlas.Graph.Plan
import CodeAtlas.Store.Session

/-!
# Builds into a graph store

A build executes the statements of its plan as one batch. A batch that fails is tried once more, unless
the store says that the data itself is at fault; a second failure fails the build. What the store did
before a failure is the store's affair: it applies a batch as a unit or not at all.

* `executeTwice` — the two attempts;
* `BuildReport` — the plan and what became of it;
* `build`, `buildInto` — a build without and with a store.
-/

namespace CodeAtlas

/-- **Why a batch was not executed.** -/
inductive BuildError where
  /-- The store refuses the data. -/
  | rejected (cause : StoreError)
  /-- Both attempts failed, the second one for the given cause. -/
  | exhausted (cause : StoreError)
  deriving DecidableEq, Repr

/-- The wording of a failed execution. -/
def BuildError.message : BuildError → String
  | .rejected e => "Graph store rejected the batch: " ++ e.message
  | .exhausted e => "Batch write failed after 2 attempts: " ++ e.message

/-- **A batch with at most two attempts.** -/
def executeTwice {σ : Type} (session : Session σ) (batch : List Statement) (s : σ) :
    Except BuildError Nat × σ :=
  match session.execute batch s with
  | (.ok n, s) => (.ok n, s)
  | (.error (.invalidData detail), s) => (.error (.rejected (.invalidData detail)), s)
  | (.error _, s) =>
    match session.execute batch s with
    | (.ok n, s) => (.ok n, s)
    | (.error e, s) => (.error (.exhausted e), s)

/-- **What a build did.** -/
structure BuildReport where
  plan : Plan
  /-- The number of statements that a store has applied. -/
  executed : Nat := 0
  /-- Why the statements were not applied. -/
  failure : Option BuildError := none

namespace BuildReport

/-- Whether nothing failed. -/
def success (r : BuildReport) : Bool :=
  r.failure.isNone

/-- What failed, in words. -/
def errors (r : BuildReport) : List String :=
  (r.failure.map BuildError.message).toList

/-- The number of statements of the plan. -/
def statementCount (r : BuildReport) : Nat :=
  r.plan.statements.length

/-- Counts as a JSON object. -/
def countsJson (m : Keyed Nat) : Json :=
  .obj (m.entries.map fun e => (e.1, .int e.2))

/-- The JSON form of a report; the texts of the statements are listed if `listed` says so. -/
def toJson (r : BuildReport) (listed : Bool) : Json :=
  .obj [("success", .bool r.success), ("nodes_created", .int r.plan.nodes.length),
    ("relationships_created", .int r.plan.relationships.length),
    ("statements", Json.ofTexts (if listed then r.plan.statements.map Statement.text else [])),
    ("statement_count", .int r.statementCount), ("executed", .int r.executed),
    ("errors", Json.ofTexts r.errors), ("warnings", Json.ofTexts r.plan.warnings),
    ("node_types", countsJson r.plan.nodeCounts),
    ("relationship_types", countsJson r.plan.relationshipCounts),
    ("created_nodes", Json.ofTexts (r.plan.nodes.map (·.id)))]

end BuildReport

/-- A build that only plans. -/
def build (settings : BuildSettings) (r : ParseResult) : BuildReport :=
  { plan := plan settings r }

/-- **A build into a graph store.** -/
def buildInto {σ : Type} (settings : BuildSettings) (r : ParseResult) (session : Session σ) (s : σ) :
    BuildReport × σ :=
  let p := plan settings r
  match executeTwice session p.statements s with
  | (.ok n, s) => ({ plan := p, executed := n }, s)
  | (.error e, s) => ({ plan := p, failure := some e }, s)

end CodeAtlas
