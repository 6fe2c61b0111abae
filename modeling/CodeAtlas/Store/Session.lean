import CodeAtlas.Statement
import CodeAtlas.Store.Query

/-!
# Sessions with a graph store

A build writes to a graph store, and requests read from it, through a `Session`: one operation that
applies a batch of statements as a unit, and one that runs a query. Both may fail, and both may change
the state of the store, which the session threads through.
-/

namespace CodeAtlas

/-- **Why a store did not do what it was asked.** -/
inductive StoreError where
  /-- The database refused. -/
  | database (detail : String)
  /-- The data cannot be stored, now or later. -/
  | invalidData (detail : String)
  /-- The store cannot be reached. -/
  | unavailable (detail : String)
  deriving DecidableEq, Repr

/-- The wording of a failure. -/
def StoreError.message : StoreError → String
  | .database detail => "Database error: " ++ detail
  | .invalidData detail => "Invalid data: " ++ detail
  | .unavailable detail => "Graph store unavailable: " ++ detail

/-- **Access to a graph store** whose state is a `σ`. -/
structure Session (σ : Type) where
  /-- Applies statements as one unit, and gives their number. -/
  execute : List Statement → σ → Except StoreError Nat × σ
  /-- Runs a query. -/
  query : GraphQuery → σ → Except StoreError (List Row) × σ

end CodeAtlas
