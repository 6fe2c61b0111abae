import CodeAtlas.Store.Contents

/-!
# Connections to a graph store

A connection sees a committed graph and, while a transaction is open, the graph with the changes of the
transaction. What is committed changes only by a commit. Beginning a transaction, applying a statement
and committing may each fail for reasons outside; `faults` says what befalls the next commands, and a
command that fails changes nothing. Rolling back drops the open transaction.

* `Connection.transaction` — work between beginning and commit, rolled back if anything fails;
* `Connection.executeBatch` — a batch of statements as one transaction;
* `Connection.session` — a connection as a session.
-/

namespace CodeAtlas

/-- **A connection to a graph store.** -/
structure Connection where
  /-- The graph as it is kept. -/
  committed : StoredGraph := ∅
  /-- The graph as the open transaction leaves it. -/
  pending : Option StoredGraph := none
  /-- What befalls the next commands; after that, nothing does. -/
  faults : List (Option StoreError) := []

namespace Connection

/-- The graph as the connection sees it. -/
def current (c : Connection) : StoredGraph :=
  c.pending.getD c.committed

/-- What befalls the next command, and the connection after that. -/
def nextFault (c : Connection) : Option StoreError × Connection :=
  match c.faults with
  | [] => (none, c)
  | f :: rest => (f, { c with faults := rest })

/-- A command that takes effect unless something befalls it. -/
def command (effect : Connection → Except StoreError Connection) (c : Connection) :
    Except StoreError Unit × Connection :=
  match c.nextFault with
  | (some e, c) => (.error e, c)
  | (none, c) =>
    match effect c with
    | .ok d => (.ok (), d)
    | .error e => (.error e, c)

/-- A transaction is opened. -/
def start : Connection → Except StoreError Unit × Connection :=
  command fun c => .ok { c with pending := some c.committed }

/-- A statement is applied. -/
def apply (s : Statement) : Connection → Except StoreError Unit × Connection :=
  command fun c => (c.current.apply s).map fun g => { c with pending := some g }

/-- The open transaction is committed. -/
def commit : Connection → Except StoreError Unit × Connection :=
  command fun c => .ok { c with committed := c.current, pending := none }

/-- The open transaction is dropped. -/
def rollback (c : Connection) : Connection :=
  { c with pending := none }

/-- Statements are applied one after the other, up to the first that fails. -/
def applyAll : List Statement → Connection → Except StoreError Unit × Connection
  | [], c => (.ok (), c)
  | s :: rest, c =>
    match c.apply s with
    | (.ok _, c) => applyAll rest c
    | (.error e, c) => (.error e, c)

/-- **Work as one transaction**: it is committed as a whole, or rolled back. -/
def transaction (work : Connection → Except StoreError Unit × Connection) (c : Connection) :
    Except StoreError Unit × Connection :=
  match c.start with
  | (.error e, c) => (.error e, c)
  | (.ok _, c) =>
    match work c with
    -- What was applied so far is taken back.
    | (.error e, c) => (.error e, c.rollback)
    | (.ok _, c) =>
      match c.commit with
      | (.error e, c) => (.error e, c.rollback)
      | (.ok _, c) => (.ok (), c)

/-- **A batch of statements as one transaction**, and their number. An empty batch needs none. -/
def executeBatch (batch : List Statement) (c : Connection) : Except StoreError Nat × Connection :=
  if batch.isEmpty then (.ok 0, c)
  else
    match transaction (applyAll batch) c with
    | (.ok _, c) => (.ok batch.length, c)
    | (.error e, c) => (.error e, c)

/-- **The nodes of a file deleted as one transaction**, and their number. Without such nodes there is
nothing to do. -/
def clearFile (path : String) (c : Connection) : Except StoreError Nat × Connection :=
  let n := c.current.countOfFile path
  if n = 0 then (.ok 0, c)
  else
    let work : Connection → Except StoreError Unit × Connection :=
      command fun c => .ok { c with pending := some (c.current.clearFile path) }
    match transaction work c with
    | (.ok _, c) => (.ok n, c)
    | (.error e, c) => (.error e, c)

/-- **A connection as a session.** -/
def session : Session Connection where
  execute := executeBatch
  query q c := (c.current.rows q, c)

end Connection

end CodeAtlas
