import CodeAtlas.Proofs.Reindexing

/-!
# A build is all or nothing

Beginning a transaction, applying a statement and committing may each fail, at any position of a batch and
in either of the two attempts that a build has. Whatever befalls it, a build ends in one of two ways
(`build_all_or_nothing`): it reports success, and its plan has been written once over the graph that was
there; or it reports what failed, and the graph is the one that was there.

`executeBatch_cases` says this of one attempt. What remains is to follow the two attempts of
`executeTwice`:

* a failed attempt leaves no transaction open, so the second one starts where the first one did;
* there is a second one only after a failure that is not the fault of the data. The attempts are observed
  from the side of the store, by a session that logs the outcome of each batch (`Session.logged`); logging
  changes nothing else (`Session.execute_logged`);
* no failure comes from nowhere: an error of an attempt is one that befell it, or the refusal of a statement
  (`executeBatch_blamed`). The statements of a build are never refused, so a build that nothing befalls
  succeeds at the first attempt.
-/

namespace CodeAtlas

/-! ### The two attempts -/

section Attempts

variable {σ : Type} {session : Session σ} {batch : List Statement} {s t : σ}

/-- A first attempt that succeeds is the only one. -/
theorem executeTwice_of_ok {n : Nat} (h : session.execute batch s = (.ok n, t)) :
    executeTwice session batch s = (.ok n, t) := by
  unfold executeTwice
  rw [h]

/-- So is one that shows that the data is at fault: trying again would fail again. -/
theorem executeTwice_of_invalidData {detail : String}
    (h : session.execute batch s = (.error (.invalidData detail), t)) :
    executeTwice session batch s = (.error (.rejected (.invalidData detail)), t) := by
  unfold executeTwice
  rw [h]

/-- After any other failure the second attempt decides. -/
theorem executeTwice_of_error {e : StoreError} (h : session.execute batch s = (.error e, t))
    (he : ∀ detail, e ≠ .invalidData detail) :
    executeTwice session batch s
      = ((session.execute batch t).1.mapError .exhausted, (session.execute batch t).2) := by
  unfold executeTwice
  rw [h]
  rcases hsecond : session.execute batch t with ⟨outcome, u⟩
  -- The retry is decided by what kind of error the first attempt ended with.
  cases e with
  | invalidData detail => exact absurd rfl (he detail)
  | _ =>
    dsimp only
    rw [hsecond]
    cases outcome with
    | ok n => rfl
    | error e => rfl

end Attempts

/-- **A session that logs the outcome of every batch**, and otherwise does what the session does. -/
def Session.logged {σ : Type} (session : Session σ) : Session (σ × List (Except StoreError Nat)) where
  execute batch s :=
    let (outcome, t) := session.execute batch s.1
    (outcome, t, s.2 ++ [outcome])
  query q s :=
    let (outcome, t) := session.query q s.1
    (outcome, t, s.2)

/-- Logging adds the outcome to the log and changes nothing else. -/
theorem Session.execute_logged {σ : Type} {session : Session σ} {batch : List Statement} {s t : σ}
    {outcome : Except StoreError Nat} (h : session.execute batch s = (outcome, t))
    (log : List (Except StoreError Nat)) :
    session.logged.execute batch (s, log) = (outcome, t, log ++ [outcome]) := by
  change (let (outcome, t) := session.execute batch s; (outcome, t, log ++ [outcome])) = _
  rw [h]

/-- **The attempts that a log may show**: one that succeeds or shows that the data is at fault, or two of
which the first one failed for another reason. -/
def Attempts (log : List (Except StoreError Nat)) : Prop :=
  (∃ n, log = [.ok n]) ∨ (∃ detail, log = [.error (.invalidData detail)]) ∨
    ∃ e last, log = [.error e, last] ∧ ∀ detail, e ≠ .invalidData detail


/-! ### Where errors come from -/

namespace Connection

variable {c d : Connection}

/-- **What a command can do**: it is befallen by an error, or its effect decides, on the same graphs. What is
to befall later commands was to befall them before. -/
theorem command_cases (effect : Connection → Except StoreError Connection) (c : Connection) :
    ∃ b, b.committed = c.committed ∧ b.pending = c.pending ∧ b.faults ⊆ c.faults ∧
      ((∃ e, some e ∈ c.faults ∧ command effect c = (.error e, b)) ∨
        (∃ d, effect b = .ok d ∧ command effect c = (.ok (), d)) ∨
        ∃ e, effect b = .error e ∧ command effect c = (.error e, b)) := by
  -- Without a fault the effect decides.
  have hrun : ∀ b : Connection, c.nextFault = (none, b) →
      (∃ d, effect b = .ok d ∧ command effect c = (.ok (), d)) ∨
        ∃ e, effect b = .error e ∧ command effect c = (.error e, b) := by
    intro b hb
    unfold command
    rw [hb]
    cases he : effect b with
    | ok d => exact .inl ⟨d, rfl, by dsimp only; rw [he]⟩
    | error e => exact .inr ⟨e, rfl, by dsimp only; rw [he]⟩
  -- A fault that is due is taken off the list whether it strikes or not.
  cases hf : c.faults with
  | nil =>
    refine ⟨c, rfl, rfl, hf ▸ List.Subset.refl _, .inr (hrun c ?_)⟩
    unfold nextFault
    rw [hf]
  | cons f rest =>
    refine ⟨{ c with faults := rest }, rfl, rfl, List.subset_cons_self f rest, ?_⟩
    cases f with
    | some e =>
      refine .inl ⟨e, List.mem_cons_self, ?_⟩
      unfold command nextFault
      rw [hf]
    | none =>
      refine .inr (hrun _ ?_)
      unfold nextFault
      rw [hf]

/-- Beginning a transaction fails only if something befalls it. -/
theorem start_cases (c : Connection) :
    (∃ e b, some e ∈ c.faults ∧ b.faults ⊆ c.faults ∧ c.start = (.error e, b)) ∨
      ∃ b, b.faults ⊆ c.faults ∧ b.current = c.committed ∧ c.start = (.ok (), b) := by
  obtain ⟨b, hcommitted, -, hfaults, ⟨e, he, h⟩ | ⟨d, hd, h⟩ | ⟨e, he, -⟩⟩ :=
    command_cases (fun c => .ok { c with pending := some c.committed }) c
  · exact .inl ⟨e, b, he, hfaults, h⟩
  · obtain rfl := Except.ok.inj hd
    exact .inr ⟨{ b with pending := some b.committed }, hfaults, hcommitted, h⟩
  · cases he

/-- Committing fails only if something befalls it. -/
theorem commit_cases (c : Connection) :
    (∃ e b, some e ∈ c.faults ∧ b.faults ⊆ c.faults ∧ c.commit = (.error e, b)) ∨
      ∃ b, b.faults ⊆ c.faults ∧ c.commit = (.ok (), b) := by
  obtain ⟨b, -, -, hfaults, ⟨e, he, h⟩ | ⟨d, hd, h⟩ | ⟨e, he, -⟩⟩ :=
    command_cases (fun c => .ok { c with committed := c.current, pending := none }) c
  · exact .inl ⟨e, b, he, hfaults, h⟩
  · obtain rfl := Except.ok.inj hd
    exact .inr ⟨{ b with committed := b.current, pending := none }, hfaults, h⟩
  · cases he

/-- A statement fails if something befalls it or if the graph refuses it. -/
theorem apply_cases (s : Statement) (c : Connection) :
    (∃ e b, (some e ∈ c.faults ∨ c.current.apply s = .error e) ∧ b.faults ⊆ c.faults ∧
        c.apply s = (.error e, b)) ∨
      ∃ b, b.faults ⊆ c.faults ∧ c.apply s = (.ok (), b) := by
  obtain ⟨b, hcommitted, hpending, hfaults, h⟩ :=
    command_cases (fun c => (c.current.apply s).map fun g => { c with pending := some g }) c
  -- Taking a fault off the list leaves the graph that the statement is applied to as it is.
  have hcurrent : b.current = c.current := by
    unfold current
    rw [hcommitted, hpending]
  rw [hcurrent] at h
  cases ha : c.current.apply s with
  | error e' =>
    rw [ha] at h
    rcases h with ⟨e, he, h⟩ | ⟨d, hd, -⟩ | ⟨e, he, h⟩
    · exact .inl ⟨e, b, .inl he, hfaults, h⟩
    · cases hd
    · exact .inl ⟨e, b, .inr (congrArg Except.error (Except.error.inj he)), hfaults, h⟩
  | ok g =>
    rw [ha] at h
    rcases h with ⟨e, he, h⟩ | ⟨d, hd, h⟩ | ⟨e, he, -⟩
    · exact .inl ⟨e, b, .inl he, hfaults, h⟩
    · obtain rfl := Except.ok.inj hd
      exact .inr ⟨{ b with pending := some g }, hfaults, h⟩
    · cases he

/-- **Statements fail if something befalls one of them or if one is refused.** -/
theorem applyAll_cases (batch : List Statement) (c : Connection) :
    (∃ e b, (some e ∈ c.faults ∨ c.current.applyAll batch = .error e) ∧ b.faults ⊆ c.faults ∧
        applyAll batch c = (.error e, b)) ∨
      ∃ b, b.faults ⊆ c.faults ∧ applyAll batch c = (.ok (), b) := by
  -- By induction on the batch, for every connection, since each statement leaves another one behind.
  induction batch generalizing c with
  | nil => exact .inr ⟨c, List.Subset.refl _, rfl⟩
  | cons s batch ih =>
    rcases apply_cases s c with ⟨e, b, he, hfaults, hs⟩ | ⟨b, hfaults, hs⟩
    · refine .inl ⟨e, b, he.imp_right fun h => ?_, hfaults, ?_⟩
      · rw [StoredGraph.applyAll, h]
      · rw [applyAll, hs]
    · -- The first statement is applied, and the others see the graph after it.
      have hrest : c.current.applyAll (s :: batch) = b.current.applyAll batch := by
        rw [StoredGraph.applyAll, (apply_eq_ok hs).2]
      have hall : applyAll (s :: batch) c = applyAll batch b := by rw [applyAll, hs]
      rw [hrest, hall]
      rcases ih b with ⟨e, d, he, hd, h⟩ | ⟨d, hd, h⟩
      · exact .inl ⟨e, d, he.imp_left fun h => hfaults h, List.Subset.trans hd hfaults, h⟩
      · exact .inr ⟨d, List.Subset.trans hd hfaults, h⟩

/-- **No batch fails for nothing**: the error befell it, or a statement is refused. -/
theorem executeBatch_blamed {batch : List Statement} {e : StoreError}
    (h : executeBatch batch c = (.error e, d)) :
    (some e ∈ c.faults ∨ c.committed.applyAll batch = .error e) ∧ d.faults ⊆ c.faults := by
  unfold executeBatch at h
  split at h
  · cases h
  unfold transaction at h
  -- Three commands may fail: to begin, to apply the batch and to commit. Faults are only ever taken off, so
  -- one that strikes late was there from the start.
  rcases start_cases c with ⟨e', b, he, hb, hs⟩ | ⟨b, hb, hcurrent, hs⟩
  · rw [hs] at h
    obtain ⟨he', rfl⟩ := Prod.mk.inj h
    exact ⟨.inl (Except.error.inj he' ▸ he), hb⟩
  · rw [hs] at h
    dsimp only at h
    rcases applyAll_cases batch b with ⟨e', b₂, he, hb₂, hw⟩ | ⟨b₂, hb₂, hw⟩
    · rw [hw] at h
      obtain ⟨he', rfl⟩ := Prod.mk.inj h
      obtain rfl := Except.error.inj he'
      exact ⟨he.imp (fun h => hb h) fun h => hcurrent ▸ h, List.Subset.trans hb₂ hb⟩
    · rw [hw] at h
      dsimp only at h
      rcases commit_cases b₂ with ⟨e', b₃, he, hb₃, hm⟩ | ⟨b₃, hb₃, hm⟩
      · rw [hm] at h
        obtain ⟨he', rfl⟩ := Prod.mk.inj h
        obtain rfl := Except.error.inj he'
        exact ⟨.inl (hb (hb₂ he)), List.Subset.trans hb₃ (List.Subset.trans hb₂ hb)⟩
      · rw [hm] at h
        cases h

/-! ### Both attempts together -/

/-- **How a batch ends** in a store that held a graph and was to be befallen by faults. -/
structure Ending (g : StoredGraph) (faults : List (Option StoreError)) (batch : List Statement)
    (outcome : Except BuildError Nat) (d : Connection) (log : List (Except StoreError Nat)) : Prop where
  /-- The batch is applied once and counted, or nothing is changed. -/
  whole : (outcome = .ok batch.length ∧ g.applyAll batch = .ok d.committed) ∨
    (∃ e, outcome = .error e) ∧ d.committed = g
  /-- No transaction is left open. -/
  closed : d.pending = none
  attempts : Attempts log
  /-- Every attempt that failed was befallen by its error, or a statement is refused. -/
  blamed : ∀ e, .error e ∈ log → some e ∈ faults ∨ g.applyAll batch = .error e

/-- **A batch with two attempts is applied once or not at all.** -/
theorem ending_executeTwice (g : StoredGraph) (faults : List (Option StoreError))
    (batch : List Statement) :
    ∃ outcome d log,
      executeTwice session.logged batch ({ committed := g, faults }, []) = (outcome, d, log) ∧
      executeTwice session batch { committed := g, faults } = (outcome, d) ∧
      Ending g faults batch outcome d log := by
  rcases executeBatch_cases (c := { committed := g, faults }) batch rfl with
    ⟨d, hd, happlied, hclosed⟩ | ⟨e, d, hd, hkept, hclosed⟩
  · refine ⟨_, d, [.ok batch.length], executeTwice_of_ok (Session.execute_logged hd []),
      executeTwice_of_ok hd, ⟨.inl ⟨rfl, happlied⟩, hclosed, .inl ⟨_, rfl⟩, ?_⟩⟩
    intro e he
    cases List.mem_singleton.1 he
  · replace hkept : d.committed = g := hkept
    obtain ⟨hblamed, hfaults⟩ := executeBatch_blamed hd
    -- The first attempt has failed and kept the graph. Whether there is another one depends on the error.
    by_cases hdata : ∃ detail, e = .invalidData detail
    · obtain ⟨detail, rfl⟩ := hdata
      refine ⟨_, d, [.error (.invalidData detail)],
        executeTwice_of_invalidData (Session.execute_logged hd []), executeTwice_of_invalidData hd,
        ⟨.inr ⟨⟨_, rfl⟩, hkept⟩, hclosed, .inr (.inl ⟨detail, rfl⟩), ?_⟩⟩
      intro e he
      obtain rfl := Except.error.inj (List.mem_singleton.1 he)
      exact hblamed
    · have hretry : ∀ detail, e ≠ .invalidData detail := fun detail h => hdata ⟨detail, h⟩
      have hfirst : session.execute batch { committed := g, faults } = (.error e, d) := hd
      have hlogged := executeTwice_of_error (Session.execute_logged hfirst []) hretry
      have hplain := executeTwice_of_error hfirst hretry
      -- The second attempt starts from the graph that the first one found.
      rcases executeBatch_cases batch hclosed with
        ⟨d₂, hd₂, happlied, hclosed₂⟩ | ⟨e₂, d₂, hd₂, hkept₂, hclosed₂⟩
      · have hsecond : session.execute batch d = (.ok batch.length, d₂) := hd₂
        rw [Session.execute_logged hsecond] at hlogged
        rw [hsecond] at hplain
        refine ⟨_, d₂, _, hlogged, hplain,
          ⟨.inl ⟨rfl, hkept ▸ happlied⟩, hclosed₂, .inr (.inr ⟨e, _, rfl, hretry⟩), ?_⟩⟩
        intro e' he'
        rcases List.mem_cons.1 he' with he' | he'
        · obtain rfl := Except.error.inj he'
          exact hblamed
        · cases List.mem_singleton.1 he'
      · have hsecond : session.execute batch d = (.error e₂, d₂) := hd₂
        rw [Session.execute_logged hsecond] at hlogged
        rw [hsecond] at hplain
        refine ⟨_, d₂, _, hlogged, hplain,
          ⟨.inr ⟨⟨_, rfl⟩, hkept₂.trans hkept⟩, hclosed₂, .inr (.inr ⟨e, _, rfl, hretry⟩), ?_⟩⟩
        intro e' he'
        -- Either attempt may be the one that the error belongs to.
        rcases List.mem_cons.1 he' with he' | he'
        · obtain rfl := Except.error.inj he'
          exact hblamed
        · obtain rfl := Except.error.inj (List.mem_singleton.1 he')
          exact (executeBatch_blamed hd₂).1.imp (fun h => hfaults h) fun h => hkept ▸ h

end Connection

/-- **A build is all or nothing.** Whatever befalls the commands of a store, every list of statements is
applied once or not at all, in one attempt or two, and every failed attempt has a reason. So a build reports
success, has executed all its statements and has written its plan once over the graph that was there; or it
reports a failure, and the graph is the one that was there. -/
theorem build_all_or_nothing (g : StoredGraph) (faults : List (Option StoreError)) :
    (∀ batch, ∃ outcome d log,
      executeTwice Connection.session.logged batch ({ committed := g, faults }, []) = (outcome, d, log) ∧
      executeTwice Connection.session batch { committed := g, faults } = (outcome, d) ∧
      Connection.Ending g faults batch outcome d log) ∧
    ∀ settings r, ∃ report d log,
      buildInto settings r Connection.session.logged ({ committed := g, faults }, []) = (report, d, log) ∧
      buildInto settings r Connection.session { committed := g, faults } = (report, d) ∧
      report.plan = plan settings r ∧
      ((report.success = true ∧ report.executed = report.statementCount ∧
          g.applyAll report.plan.statements = .ok d.committed) ∨
        (report.success = false ∧ report.errors ≠ [] ∧ d.committed = g)) ∧
      d.pending = none ∧ Attempts log ∧ ∀ e, .error e ∈ log → some e ∈ faults := by
  refine ⟨Connection.ending_executeTwice g faults, fun settings r => ?_⟩
  obtain ⟨outcome, d, log, hlogged, hplain, hend⟩ :=
    Connection.ending_executeTwice g faults (plan settings r).statements
  -- The statements of a build are never refused, so only what befell an attempt can be to blame.
  have hblamed : ∀ e, .error e ∈ log → some e ∈ faults := by
    intro e he
    rcases hend.blamed e he with h | h
    · exact h
    · rw [StoredGraph.applyAll_plan settings r g] at h
      cases h
  unfold buildInto
  dsimp only
  rw [hlogged, hplain]
  -- The report follows how the statements ended: applied as a whole, or not at all.
  rcases hend.whole with ⟨rfl, happlied⟩ | ⟨⟨e, rfl⟩, hkept⟩
  · exact ⟨_, d, log, rfl, rfl, rfl, .inl ⟨rfl, rfl, happlied⟩, hend.closed, hend.attempts, hblamed⟩
  · refine ⟨_, d, log, rfl, rfl, rfl, .inr ⟨rfl, ?_, hkept⟩, hend.closed, hend.attempts, hblamed⟩
    exact List.cons_ne_nil _ _

end CodeAtlas
