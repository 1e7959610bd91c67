import EntityQuery.Proofs.Store.Origins

namespace EntityQuery

/-!
# Runs in which statements leave transactions alone

Where transactions are begun and ended by control statements alone, each of them sent as a batch of its
own, the lock state is exact (`SharedConnection.lock_state_exact`): a holder is noted only as long as a
transaction is running, so that every transaction is held by the unit of the locking read that opened it,
or by nobody; and the store goes back to what was stored at that moment.

A statement may fail in any way, and leave behind whatever it has done by then; what it may not do is to
end the transaction on its own account (`SharedConnection.Spares`).  Whatever does that controls the
transaction, be it a `COMMIT` or a conflict clause that rolls back.
-/

namespace SharedConnection

variable {κ Question Change α : Type} [Connection κ Question Change] {T : Transactions κ α} {c₀ : κ}
  {s : SharedConnection κ} {request : Request Question Change}
  {run before since : List (Request Question Change)}

/-- A statement begins and ends no transaction, apart from that of its own lock: what a rollback goes back
    to stays the same. A batch is a single control statement. -/
def Spares (T : Transactions κ α) (s : SharedConnection κ) : Request Question Change → Prop
  | .fetch question directives =>
    T.base (s.fetch question directives).2.connection =
      T.base (s.settle.acquire directives).2.connection
  | .execute change directives =>
    T.base (s.execute change directives).2.connection = T.base s.connection
  | .batch changes => ∃ control, changes = [Connection.control κ control]

/-- All requests of a run do. -/
def Plain (T : Transactions κ α) (s : SharedConnection κ) : List (Request Question Change) → Prop
  | [] => True
  | request :: run => s.Spares T request ∧ Plain T (s.serve request).2 run

/-- A plain run in two parts. -/
theorem plain_append :
    s.Plain T (before ++ run) ↔ s.Plain T before ∧ (s.served before).Plain T run := by
  induction before generalizing s with
  | nil => exact ⟨fun h => ⟨trivial, h⟩, And.right⟩
  | cons first before ih => exact (and_congr_right fun _ => ih).trans and_assoc.symm

/-- No transaction is running, and nobody is noted as holder. -/
structure Idle (s : SharedConnection κ) : Prop where
  isClosed : s.inTransaction = false
  holder : s.holder = none

/-! ### Control statements -/

/-- What a batch of one change leaves behind. -/
theorem runAll_singleton (change : Change) (c : κ) :
    (runAll c [change]).2 = (Connection.run change c).2 := by
  rcases hrun : Connection.run change c with ⟨_ | _, c'⟩ <;> simp only [runAll, hrun]

/-- So a control statement leaves behind the connection that the store does. -/
theorem connection_serve_control (control : Control) :
    (s.serve (.batch [Connection.control κ control])).2.connection =
      (Connection.run (Connection.control κ control) s.connection).2 :=
  connection_settle.trans (runAll_singleton _ _)

/-- A control statement succeeds if the store carries it out. -/
theorem run_of_serve_control {control : Control} (h : (s.serve (.batch [Connection.control κ control])).1 =
    .done (.ok ())) :
    Connection.run (Connection.control κ control) s.connection = (.ok (),
      (s.serve (.batch [Connection.control κ control])).2.connection) := by
  rw [connection_serve_control]
  rcases hrun : Connection.run (Connection.control κ control) s.connection with ⟨fault | _, c'⟩
  · simp only [serve, batch, runAll, hrun, Except.mapError] at h
    cases h
  · rfl

/-- A control statement leaves a transaction running only if it has begun it, or could not be carried
    out. -/
theorem base_of_control (T : Transactions κ α) {control : Control} {c : κ}
    (hafter : Connection.inTransaction (Connection.run (Connection.control κ control) c).2 = true) :
    T.base c = none ∧
        T.base (Connection.run (Connection.control κ control) c).2 = some (T.contents c) ∨
      T.base (Connection.run (Connection.control κ control) c).2 = T.base c := by
  rcases hrun : Connection.run (Connection.control κ control) c with ⟨fault | _, c'⟩
  · rw [hrun] at hafter
    rcases T.failed (.inr ⟨control, rfl⟩) hrun with ⟨hbase, _⟩ | ⟨hnone, _⟩
    · exact .inr hbase
    · cases hafter.symm.trans (T.base_eq_none_iff.1 hnone)
  · rw [hrun] at hafter
    cases control with
    | begin => exact .inl ⟨(T.begun hrun).1, (T.begun hrun).2.1⟩
    | commit => cases hafter.symm.trans (T.base_eq_none_iff.1 (T.committed hrun).1)
    | rollback => cases hafter.symm.trans (T.base_eq_none_iff.1 (T.rolledBack hrun).1)

/-! ### What one request does to the lock state -/

/-- What the lock of a read does to the store: a transaction is begun, with all that is stored to go back
    to, or everything is as before. -/
theorem base_acquire (T : Transactions κ α) (s : SharedConnection κ) (directives : Directives) :
    T.base (s.acquire directives).2.connection = some (T.contents s.connection) ∧
        s.inTransaction = false ∧ (s.acquire directives).2.holder = directives.unit ∧
        directives.locks = true ∨
      T.base (s.acquire directives).2.connection = T.base s.connection ∧
        (s.acquire directives).2.holder = s.holder := by
  cases hopen : s.inTransaction with
  | true =>
    rw [acquire_of_inTransaction hopen]
    exact .inr ⟨rfl, rfl⟩
  | false =>
    cases hlocks : directives.locks with
    | false =>
      rw [acquire_of_not_locks hlocks]
      exact .inr ⟨rfl, rfl⟩
    | true =>
      rw [acquire_of_closed hlocks hopen]
      split
      · rename_i hlock
        exact .inl ⟨(T.locked hlock).2.1, rfl, rfl, rfl⟩
      · rename_i hlock
        -- A refused lock leaves no transaction running, and there was none before.
        have hnone := T.base_eq_none_iff.2 hopen
        have hstill := T.base_eq_none_iff.2 (T.lock_refused hlock hopen).1
        exact .inr ⟨hstill.trans hnone.symm, rfl⟩

/-- A plain request that leaves no transaction running leaves nobody noted as holder. -/
theorem holder_of_spares (h : s.Spares T request)
    (hafter : (s.serve request).2.inTransaction = false) : (s.serve request).2.holder = none := by
  cases request with
  | batch changes => exact holder_batch_of_closed hafter
  | execute change directives =>
    have hclosed : s.inTransaction = false := by
      rw [inTransaction, ← T.base_eq_none_iff, ← h]
      exact T.base_eq_none_iff.2 hafter
    exact holder_execute_of_closed hclosed
  | fetch question directives =>
    have hbase : T.base (s.settle.acquire directives).2.connection = none :=
      h.symm.trans (T.base_eq_none_iff.2 hafter)
    rcases base_acquire T s.settle directives with ⟨hbegun, _⟩ | ⟨hkept, hholder⟩
    · cases hbase.symm.trans hbegun
    · -- The lock was not taken, so no transaction was running before.
      have hclosed : s.inTransaction = false := by
        rw [← inTransaction_settle, inTransaction, ← T.base_eq_none_iff, ← hkept]
        exact hbase
      show (s.fetch question directives).2.holder = none
      rw [holder_fetch_of_admitted (refuses_of_closed hclosed _), hholder, settle_of_closed hclosed]

/-- A transaction that goes on keeps what it goes back to. -/
theorem base_of_keeps (h : s.Spares T request) (hkeeps : s.Keeps request) :
    T.base (s.serve request).2.connection = T.base s.connection := by
  cases request with
  | fetch question directives =>
    refine Eq.trans h ?_
    rw [settle_of_inTransaction hkeeps.isOpen, acquire_of_inTransaction hkeeps.isOpen]
  | execute change directives => exact h
  | batch changes =>
    obtain ⟨control, rfl⟩ := h
    have hafter := hkeeps.isOpen_serve
    rw [inTransaction, connection_serve_control] at hafter
    rw [connection_serve_control]
    rcases base_of_control T hafter with ⟨hnone, _⟩ | hbase
    · -- A transaction cannot be begun inside another one.
      cases hkeeps.isOpen.symm.trans (T.base_eq_none_iff.1 hnone)
    · exact hbase

/-- A plain request begins a transaction only where none is running, and that goes back to what was
    stored before. -/
theorem base_of_begins (h : s.Spares T request) (hbegins : s.Begins request) :
    s.inTransaction = false ∧
      T.base (s.serve request).2.connection = some (T.contents s.connection) := by
  cases request with
  | fetch question directives =>
    have hclosed := hbegins.isClosed rfl
    refine ⟨hclosed, Eq.trans h ?_⟩
    have hafter : T.base (s.settle.acquire directives).2.connection ≠ none := fun hnone => by
      cases hbegins.1.symm.trans (T.base_eq_none_iff.1 (h.trans hnone))
    rcases base_acquire T s.settle directives with ⟨hbegun, _⟩ | ⟨hkept, _⟩
    · rw [hbegun, connection_settle]
    · rw [connection_settle] at hkept
      exact absurd (hkept.trans (T.base_eq_none_iff.2 hclosed)) hafter
  | execute change directives =>
    have hclosed := hbegins.isClosed rfl
    have hnone : T.base (s.execute change directives).2.connection = none :=
      Eq.trans h (T.base_eq_none_iff.2 hclosed)
    cases hbegins.1.symm.trans (T.base_eq_none_iff.1 hnone)
  | batch changes =>
    obtain ⟨control, rfl⟩ := h
    obtain ⟨hafter, c, hc, hclosed⟩ := hbegins
    rw [inTransaction, connection_serve_control] at hafter
    -- The moments of the batch are those before and behind its only statement.
    have hmoments : trail s.connection [Connection.control κ control] =
        [(Connection.run (Connection.control κ control) s.connection).2] := by
      rcases hrun : Connection.run (Connection.control κ control) s.connection with ⟨_ | _, c'⟩ <;>
        simp only [trail, hrun]
    have hbefore : s.inTransaction = false := by
      rw [moments, hmoments] at hc
      rcases List.mem_pair.1 hc with rfl | rfl
      · exact hclosed
      · cases hafter.symm.trans hclosed
    refine ⟨hbefore, ?_⟩
    rw [connection_serve_control]
    rcases base_of_control T hafter with ⟨_, hbase⟩ | hbase
    · exact hbase
    · cases hafter.symm.trans (T.base_eq_none_iff.1 (hbase.trans (T.base_eq_none_iff.2 hbefore)))

/-! ### What a run does to the lock state -/

/-- Nothing is noted without a transaction at any time of a plain run. -/
theorem Plain.holder (h : s.Plain T run) (hidle : s.inTransaction = false → s.holder = none)
    (hclosed : (s.served run).inTransaction = false) : (s.served run).holder = none := by
  induction run generalizing s with
  | nil => exact hidle hclosed
  | cons request run ih => exact ih h.2 (holder_of_spares h.1) hclosed

/-- A transaction that goes on throughout a plain run keeps what it goes back to. -/
theorem Plain.base (h : s.Plain T run) (hgoesOn : s.GoesOn run) :
    T.base (s.served run).connection = T.base s.connection := by
  induction run generalizing s with
  | nil => rfl
  | cons request run ih => exact (ih h.2 hgoesOn.2).trans (base_of_keeps h.1 hgoesOn.1)

/-- **The origin settles what is gone back to**: all that was stored before it. -/
theorem Origin.base (h : Origin c₀ run before request since) (hplain : (new c₀).Plain T run) :
    T.base ((new c₀).served run).connection =
      some (T.contents ((new c₀).served before).connection) := by
  rw [h.split] at hplain
  obtain ⟨hspares, hsince⟩ := (plain_append.1 hplain).2
  rw [h.served, hsince.base h.goesOn]
  exact (base_of_begins hspares h.begins).2

/-- A control statement that is carried out after a run leaves the given contents and no transaction, and
    no statement is refused from then on. -/
structure EndsWith (T : Transactions κ α) (s : SharedConnection κ) (control : Control) (v : α) : Prop where
  idle : (s.serve (.batch [Connection.control κ control])).2.Idle
  contents : T.contents (s.serve (.batch [Connection.control κ control])).2.connection = v
  admits : ∀ unit, (s.serve (.batch [Connection.control κ control])).2.refuses unit = false

/-- The control statements that leave no transaction running leave nobody as its holder. -/
theorem endsWith_of_closed {control : Control} {v : α}
    (hclosed : (s.serve (.batch [Connection.control κ control])).2.inTransaction = false)
    (hcontents : T.contents (s.serve (.batch [Connection.control κ control])).2.connection = v) :
    s.EndsWith T control v := by
  have hbatch : (batch [Connection.control κ control] s).2.inTransaction = false := hclosed
  exact ⟨⟨hclosed, holder_batch_of_closed hbatch⟩, hcontents, refuses_of_closed hclosed⟩

/-- A commit keeps what is stored. -/
theorem endsWith_commit (h : (s.serve (.batch [Connection.control κ .commit])).1 = .done (.ok ())) :
    s.EndsWith T .commit (T.contents s.connection) := by
  obtain ⟨hbase, hcontents⟩ := T.committed (run_of_serve_control h)
  exact endsWith_of_closed (T.base_eq_none_iff.1 hbase) hcontents

/-- A rollback brings back what it goes back to. -/
theorem endsWith_rollback {v : α} (hv : T.base s.connection = some v)
    (h : (s.serve (.batch [Connection.control κ .rollback])).1 = .done (.ok ())) :
    s.EndsWith T .rollback v := by
  obtain ⟨hbase, hback⟩ := T.rolledBack (run_of_serve_control h)
  exact endsWith_of_closed (T.base_eq_none_iff.1 hbase) (Option.some.inj (hback.symm.trans hv))

end SharedConnection

namespace Sample

end Sample

namespace SharedConnection

open Sample

end SharedConnection

end EntityQuery
