import EntityQuery.Proofs.Outcome
import EntityQuery.Proofs.Store.Exclusion
import Mathlib.Data.List.Induction

namespace EntityQuery

/-!
# Origins of transactions

Transactions can be begun and ended by any statement and by any of the changes of a batch, several
times in one batch.  A transaction that is running has an origin (`SharedConnection.Origin`): the request
that left it open, after which nothing has ended it.  The holder that is noted during the transaction is
settled by its origin (`SharedConnection.Origin.holder`): the unit of a locking read, nobody where a
statement began the transaction, and where a batch began it, whoever was noted when the batch came.

That last case is how a lock can outlive its transaction: its end is noticed only at a moment when no
transaction is running.

* `SharedConnection.timedOut_serve_iff` — a statement times out because another unit of work holds the
  lock, or because the store itself is busy;
* `SharedConnection.timedOut_iff_origin` — which statements are refused after any run, and that locks end
  with their transactions wherever no batch leaves open a transaction of its own while a holder is noted;
* `SharedConnection.ended_lock_refuses` — the shortest runs in which one does.
-/

/-! ### Statements that run into a lock -/

/-- A request ran into a lock, whatever the reason that is given. -/
def Answer.TimedOut (answer : Answer) : Prop :=
  ∃ reason, answer.error? = some (.store ⟨.lockTimeout, reason⟩)

/-- A question is answered with an error or with rows. -/
theorem Answer.error?_rows {outcome : Except Error RowSet} {error : Error} :
    (Answer.rows outcome).error? = some error ↔ outcome = .error error := by
  cases outcome <;> simp [error?]

/-- A change is answered with an error or with a number of rows. -/
theorem Answer.error?_changed {outcome : Except Error Nat} {error : Error} :
    (Answer.changed outcome).error? = some error ↔ outcome = .error error := by
  cases outcome <;> simp [error?]

/-- Of the faults of a store, those of a busy one become lock timeouts. -/
theorem Fault.kind_failure_eq_lockTimeout_iff {fault : Fault} :
    fault.failure.kind = .lockTimeout ↔ fault.IsBusy := by
  obtain ⟨_ | code, reason⟩ := fault
  · exact ⟨nofun, fun ⟨_, h, _⟩ => nomatch h⟩
  · have hcode : StoreFailure.kindOfCode code = .lockTimeout ↔ code % 256 = 5 ∨ code % 256 = 6 := by
      unfold StoreFailure.kindOfCode
      split <;> simp_all
    refine hcode.trans ⟨fun h => ⟨code, rfl, h⟩, ?_⟩
    rintro ⟨_, ⟨⟩, h⟩
    exact h

/-- Rows are not answered because of a fault of the store; all that else can fail is to read them. -/
theorem Answering.exists_fault {κ : Type} {answering : Answering κ} {failure : StoreFailure}
    (h : answering.read.1 = .error (.store failure)) : ∃ fault : Fault, failure = fault.failure := by
  induction answering with
  | finished connection => cases h
  | failed fault connection =>
    cases h
    exact ⟨fault, rfl⟩
  | row values stopped rest ih =>
    rw [read] at h
    split at h
    · cases h
    · exact ih (map_eq_error_iff.1 h)

namespace SharedConnection

variable {κ Question Change α : Type} [Connection κ Question Change] {c₀ : κ} {s : SharedConnection κ}
  {u : UnitOfWork} {request : Request Question Change}
  {run before since : List (Request Question Change)} {question : Question} {change : Change}
  {directives : Directives} {failure : StoreFailure}

/-- A read that is let through fails in the store only because of a fault of its own. -/
theorem exists_fault_of_fetch (hadmitted : s.refuses directives.unit = false)
    (h : (s.fetch question directives).1 = .error (.store failure)) :
    ∃ fault : Fault, failure = fault.failure := by
  rw [fetch_of_admitted hadmitted] at h
  split at h
  · rename_i error s' hacquire
    cases h
    unfold acquire at hacquire
    -- Of the ways to acquire, taking the lock is the only one that fails.
    split at hacquire
    · split at hacquire
      · cases hacquire
      · rename_i fault connection _
        cases hacquire
        exact ⟨fault, rfl⟩
    · cases hacquire
  · exact Answering.exists_fault (map_eq_error_iff.1 h)

/-- So does a change. -/
theorem exists_fault_of_execute (hadmitted : s.refuses directives.unit = false)
    (h : (s.execute change directives).1 = .error (.store failure)) :
    ∃ fault : Fault, failure = fault.failure := by
  rw [execute, hadmitted, if_neg Bool.false_ne_true] at h
  dsimp only at h
  cases houtcome : (Connection.execute change s.connection).1 with
  | ok count =>
    rw [houtcome] at h
    cases h
  | error fault =>
    rw [houtcome] at h
    cases h
    exact ⟨fault, rfl⟩

/-- A statement is let through, and the store reports that it is busy or locked itself. -/
structure Blocked (s : SharedConnection κ) (request : Request Question Change) : Prop where
  admitted : ∀ directives, request.directives? = some directives → s.refuses directives.unit = false
  busy : ∃ fault : Fault, fault.IsBusy ∧ (s.serve request).1.error? = some (.store fault.failure)

/-- The failure of a statement that was let through is a fault of the store. -/
theorem exists_fault_of_serve (hstatement : request.directives? = some directives)
    (hadmitted : s.refuses directives.unit = false)
    (h : (s.serve request).1.error? = some (.store failure)) :
    ∃ fault : Fault, failure = fault.failure := by
  cases request with
  | fetch question directives' =>
    cases hstatement
    exact exists_fault_of_fetch hadmitted (Answer.error?_rows.1 h)
  | execute change directives' =>
    cases hstatement
    exact exists_fault_of_execute hadmitted (Answer.error?_changed.1 h)
  | batch changes => cases hstatement

/-- **A statement times out** because another unit of work holds the lock, or because the store is busy. -/
theorem timedOut_serve_iff (hstatement : request.directives? = some directives) :
    (s.serve request).1.TimedOut ↔ s.refuses directives.unit = true ∨ s.Blocked request := by
  constructor
  · rintro ⟨reason, hreason⟩
    cases hrefuses : s.refuses directives.unit with
    | true => exact .inl rfl
    | false =>
      -- Whoever is let in is told what the store says.
      obtain ⟨fault, hfault⟩ := exists_fault_of_serve hstatement hrefuses hreason
      refine .inr ⟨fun other hother => ?_, fault, ?_, hfault ▸ hreason⟩
      · cases hstatement.symm.trans hother
        exact hrefuses
      · rw [← Fault.kind_failure_eq_lockTimeout_iff, ← hfault]
  · rintro (hrefuses | ⟨_, fault, hbusy, herror⟩)
    · exact ⟨_, (serve_of_refuses hstatement hrefuses).1⟩
    · refine ⟨fault.failure.reason, ?_⟩
      rw [herror, ← Fault.kind_failure_eq_lockTimeout_iff.2 hbusy]

/-! ### The holder that is noted -/

/-- A locking read outside of transactions asks the store for one, on behalf of its unit of work. -/
theorem fetch_of_closed (hlocks : directives.locks = true) (hclosed : s.inTransaction = false) :
    s.fetch question directives =
      match Connection.run (Connection.lock κ) s.connection with
      | (.ok (), connection) => ask question ⟨connection, directives.unit⟩
      | (.error fault, connection) => (.error (.store fault.failure), ⟨connection, none⟩) := by
  have hsettled : s.settle.inTransaction = false := inTransaction_settle.trans hclosed
  rw [fetch_of_admitted (refuses_of_closed hclosed _), acquire_of_closed hlocks hsettled,
    connection_settle, settle_of_closed hclosed]
  rcases Connection.run (Connection.lock κ) s.connection with ⟨_ | _, connection⟩ <;> rfl

/-- Any other read is just asked. -/
theorem fetch_of_not_locks (hlocks : directives.locks = false)
    (hadmitted : s.refuses directives.unit = false) :
    s.fetch question directives = s.settle.ask question := by
  rw [fetch_of_admitted hadmitted, acquire_of_not_locks hlocks]

/-- Outside of transactions it drops the note. -/
theorem holder_fetch_of_not_locks (hlocks : directives.locks = false)
    (hclosed : s.inTransaction = false) : (s.fetch question directives).2.holder = none := by
  rw [fetch_of_not_locks hlocks (refuses_of_closed hclosed _), holder_ask, settle_of_closed hclosed]

/-- And so does a change. -/
theorem holder_execute_of_closed (hclosed : s.inTransaction = false) :
    (s.execute change directives).2.holder = none := by
  rw [execute, refuses_of_closed hclosed, if_neg Bool.false_ne_true, settle_of_closed hclosed]

/-- A statement that finds no transaction running drops the note, or notes the unit that it locks for. -/
theorem holder_serve_of_closed (hstatement : request.directives? = some directives)
    (hclosed : s.inTransaction = false) :
    (s.serve request).2.holder = none ∨ (s.serve request).2.holder = request.locker? := by
  cases request with
  | fetch question directives' =>
    show (s.fetch question directives').2.holder = none ∨ (s.fetch question directives').2.holder = _
    cases hlocks : directives'.locks with
    | true =>
      rw [fetch_of_closed hlocks hclosed, Request.locker?, hlocks]
      -- The holder is noted once the lock is taken.
      split
      · exact .inr rfl
      · exact .inl rfl
    | false => exact .inl (holder_fetch_of_not_locks hlocks hclosed)
  | execute change directives' => exact .inl (holder_execute_of_closed hclosed)
  | batch changes => cases hstatement

/-- The unit that reads with a lock is the unit of the statement. -/
theorem unit_of_locker (hstatement : request.directives? = some directives)
    (hlocker : request.locker? = some u) : directives.unit = some u := by
  cases request with
  | fetch question directives' =>
    cases hstatement
    rw [Request.locker?] at hlocker
    split at hlocker
    · exact hlocker
    · cases hlocker
  | execute change directives' => cases hlocker
  | batch changes => cases hlocker

/-- A statement that leaves a holder noted without a transaction is one of that unit. -/
theorem unit_of_noted (hstatement : request.directives? = some directives)
    (hclosed : (s.serve request).2.inTransaction = false)
    (hnoted : (s.serve request).2.holder = some u) : directives.unit = some u := by
  cases hopen : s.inTransaction with
  | true =>
    -- A statement that is refused ends no transaction.
    have hadmitted : s.refuses directives.unit = false := by
      rw [← Bool.not_eq_true]
      intro hrefuses
      rw [(serve_of_refuses hstatement hrefuses).2, hopen] at hclosed
      cases hclosed
    have hholder : s.holder = some u := by
      rw [← hnoted]
      cases request with
      | fetch question directives' => exact (holder_fetch hopen).symm
      | execute change directives' => exact (holder_execute hopen).symm
      | batch changes => cases hstatement
    have hsame : (some u != directives.unit) = false := by
      simpa only [refuses, hopen, hholder, Option.isSome_some, Bool.true_and] using hadmitted
    exact (bne_eq_false_iff_eq.1 hsame).symm
  | false =>
    rcases holder_serve_of_closed hstatement hopen with hnone | hlocker
    · cases hnone.symm.trans hnoted
    · exact unit_of_locker hstatement (hlocker.symm.trans hnoted)

/-- The unit of work that is noted as the holder of the request's own transaction. A batch leaves
    the note as it finds it. -/
def notes (s : SharedConnection κ) : Request Question Change → Option UnitOfWork
  | .batch _ => s.holder
  | request => request.locker?

/-- A transaction starts with the holder that its request notes. -/
theorem holder_of_begins (T : Transactions κ α) (h : s.Begins request) :
    (s.serve request).2.holder = s.notes request := by
  cases request with
  | fetch question directives =>
    have hclosed : s.inTransaction = false := h.isClosed rfl
    have hafter : (s.fetch question directives).2.inTransaction = true := h.1
    show (s.fetch question directives).2.holder = if directives.locks then directives.unit else none
    cases hlocks : directives.locks with
    | true =>
      rw [fetch_of_closed hlocks hclosed] at hafter ⊢
      split
      · rfl
      · -- The store has refused the lock, and no transaction is running.
        rename_i fault connection hlock
        rw [hlock] at hafter
        cases hafter.symm.trans (T.lock_refused hlock hclosed).1
    | false => exact holder_fetch_of_not_locks hlocks hclosed
  | execute change directives => exact holder_execute_of_closed (h.isClosed rfl)
  | batch changes => exact holder_batch h.1

/-! ### Origins -/

/-- A connection that nothing was done with. -/
def new (connection : κ) : SharedConnection κ := ⟨connection, none⟩

/-- One more request during which the transaction goes on. -/
theorem GoesOn.append_singleton (h : s.GoesOn run) (hlast : (s.served run).Keeps request) :
    s.GoesOn (run ++ [request]) := by
  induction run generalizing s with
  | nil => exact ⟨hlast, hlast.isOpen_serve⟩
  | cons first run ih => exact ⟨h.1, ih h.2 hlast⟩

/-- A transaction that goes on is running at the end. -/
theorem GoesOn.isOpen (h : s.GoesOn run) : (s.served run).inTransaction = true := by
  induction run generalizing s with
  | nil => exact h
  | cons first run ih => exact ih h.2

/-- **The holder stays** throughout the run. -/
theorem GoesOn.holder (h : s.GoesOn run) : (s.served run).holder = s.holder := by
  induction run generalizing s with
  | nil => rfl
  | cons first run ih => exact (ih h.2).trans (holder_of_keeps h.1)

/-- The request of a run that left open the transaction which is running after it. -/
structure Origin (c₀ : κ) (run before : List (Request Question Change))
    (request : Request Question Change) (since : List (Request Question Change)) : Prop where
  split : run = before ++ request :: since
  begins : ((new c₀).served before).Begins request
  goesOn : (((new c₀).served before).serve request).2.GoesOn since

/-- A run in three parts: up to the origin, the origin, and from there on. -/
theorem Origin.served (h : Origin c₀ run before request since) :
    (new c₀).served run = (((new c₀).served before).serve request).2.served since := by
  rw [h.split, served_append]
  rfl

/-- Whatever transaction is running has an origin. -/
theorem exists_origin (hnew : Connection.inTransaction c₀ = false)
    (hopen : ((new c₀).served run).inTransaction = true) :
    ∃ before request since, Origin c₀ run before request since := by
  -- From the right: the last request has begun the transaction, or it goes on from an earlier one.
  induction run using List.reverseRecOn with
  | nil => cases hopen.symm.trans hnew
  | append_singleton run request ih =>
    rw [served_append] at hopen
    rcases inTransaction_serve_iff.1 hopen with hkeeps | hbegins
    · obtain ⟨before, first, since, horigin⟩ := ih hkeeps.isOpen
      rw [horigin.served] at hkeeps
      refine ⟨before, first, since ++ [request], ?_, horigin.begins,
        horigin.goesOn.append_singleton hkeeps⟩
      rw [horigin.split, List.append_assoc, List.cons_append]
    · exact ⟨run, request, [], rfl, hbegins, hopen⟩

/-- The transaction of an origin is running. -/
theorem Origin.isOpen (h : Origin c₀ run before request since) :
    ((new c₀).served run).inTransaction = true := by
  rw [h.served]
  exact h.goesOn.isOpen

/-- **The origin settles the holder** for as long as its transaction goes on. -/
theorem Origin.holder (T : Transactions κ α) (h : Origin c₀ run before request since) :
    ((new c₀).served run).holder = ((new c₀).served before).notes request := by
  rw [h.served, h.goesOn.holder]
  exact holder_of_begins T h.begins

/-- **A note outlasts its transaction by one statement**: where no transaction is running and a
    holder is noted, the last request was a statement of that unit. -/
theorem last_of_noted (hclosed : ((new c₀).served run).inTransaction = false)
    (hnoted : ((new c₀).served run).holder = some u) :
    ∃ before last directives, run = before ++ [last] ∧ last.directives? = some directives ∧
      directives.unit = some u := by
  induction run using List.reverseRecOn with
  | nil => cases hnoted
  | append_singleton before last _ =>
    rw [served_append] at hclosed hnoted
    cases hlast : last.directives? with
    | some directives =>
      exact ⟨before, last, directives, rfl, hlast, unit_of_noted hlast hclosed hnoted⟩
    | none =>
      cases last with
      | fetch question directives => cases hlast
      | execute change directives => cases hlast
      | batch changes =>
        -- A batch that leaves no transaction running drops every note.
        have hdropped : (batch changes ((new c₀).served before)).2.holder = none :=
          holder_batch_of_closed hclosed
        cases hdropped.symm.trans hnoted

/-- Statements are refused where the running transaction is noted for another unit. -/
theorem refuses_served_iff (T : Transactions κ α) (hnew : Connection.inTransaction c₀ = false)
    {unit : Option UnitOfWork} :
    ((new c₀).served run).refuses unit = true ↔
      ∃ before request since u, Origin c₀ run before request since ∧
        ((new c₀).served before).notes request = some u ∧ unit ≠ some u := by
  rw [refuses, Bool.and_eq_true, Bool.and_eq_true, bne_iff_ne]
  constructor
  · rintro ⟨⟨hsome, hopen⟩, hne⟩
    obtain ⟨u, hu⟩ := Option.isSome_iff_exists.1 hsome
    obtain ⟨before, request, since, horigin⟩ := exists_origin hnew hopen
    rw [hu] at hne
    exact ⟨before, request, since, u, horigin, (horigin.holder T).symm.trans hu, hne.symm⟩
  · rintro ⟨before, request, since, u, horigin, hnotes, hne⟩
    rw [horigin.holder T, hnotes]
    exact ⟨⟨rfl, horigin.isOpen⟩, hne.symm⟩

/-! ### Batches and the holder they find -/

/-- No batch leaves open a transaction of its own while a holder is noted. -/
def BeginsUnnoted (s : SharedConnection κ) : List (Request Question Change) → Prop
  | [] => True
  | request :: run =>
    (∀ changes, request = .batch changes → s.Begins request → s.holder = none) ∧
      BeginsUnnoted (s.serve request).2 run

/-- What holds of all batches of a run holds of those in its second part. -/
theorem BeginsUnnoted.drop (h : s.BeginsUnnoted (before ++ run)) :
    (s.served before).BeginsUnnoted run := by
  induction before generalizing s with
  | nil => exact h
  | cons first before ih => exact ih h.2

/-- There, a transaction is noted for a unit only where a locking read of the unit began it. -/
theorem Origin.notes_of_beginsUnnoted (h : Origin c₀ run before request since)
    (hunnoted : (new c₀).BeginsUnnoted run) :
    ((new c₀).served before).notes request = request.locker? := by
  cases request with
  | fetch question directives => rfl
  | execute change directives => rfl
  | batch changes =>
    rw [h.split] at hunnoted
    exact hunnoted.drop.1 changes rfl h.begins

/-- There, statements are refused because of the locking read that began the transaction. -/
theorem refuses_iff_of_beginsUnnoted (T : Transactions κ α)
    (hnew : Connection.inTransaction c₀ = false) (hunnoted : (new c₀).BeginsUnnoted run)
    {unit : Option UnitOfWork} :
    ((new c₀).served run).refuses unit = true ↔
      ∃ before origin since u, Origin c₀ run before origin since ∧ origin.locker? = some u ∧
        unit ≠ some u := by
  rw [refuses_served_iff T hnew]
  constructor
  · rintro ⟨before, origin, since, u, horigin, hnotes, hother⟩
    rw [horigin.notes_of_beginsUnnoted hunnoted] at hnotes
    exact ⟨before, origin, since, u, horigin, hnotes, hother⟩
  · rintro ⟨before, origin, since, u, horigin, hlocker, hother⟩
    rw [← horigin.notes_of_beginsUnnoted hunnoted] at hlocker
    exact ⟨before, origin, since, u, horigin, hlocker, hother⟩

/-- **Which statements a lock refuses.**  After any run of statements and batches, a statement times
    out if and only if the transaction that is running is noted for another unit of work: that of the
    locking read which opened it, or that which a batch found noted when it began the transaction; or
    if it is let through and the store reports that it is busy itself.
    Where no transaction is running, a unit is still noted only if the last request was a statement
    of its own.  And where no batch leaves open a transaction of its own while a holder is noted,
    statements are refused only as long as the transaction of a locking read of another unit is running
    itself: once it has ended, by whatever statement or batch, nobody is refused because of it. -/
theorem timedOut_iff_origin (T : Transactions κ α) (hnew : Connection.inTransaction c₀ = false)
    (run : List (Request Question Change)) (hstatement : request.directives? = some directives) :
    ((((new c₀).served run).serve request).1.TimedOut ↔
      (∃ before origin since u, Origin c₀ run before origin since ∧
        ((new c₀).served before).notes origin = some u ∧ directives.unit ≠ some u) ∨
      ((new c₀).served run).Blocked request) ∧
    (∀ u, ((new c₀).served run).inTransaction = false → ((new c₀).served run).holder = some u →
      ∃ before last directives, run = before ++ [last] ∧ last.directives? = some directives ∧
        directives.unit = some u) ∧
    ((new c₀).BeginsUnnoted run →
      ((((new c₀).served run).serve request).1.TimedOut ↔
        (∃ before origin since u, Origin c₀ run before origin since ∧
          origin.locker? = some u ∧ directives.unit ≠ some u) ∨
        ((new c₀).served run).Blocked request)) := by
  rw [timedOut_serve_iff hstatement]
  refine ⟨?_, fun u => last_of_noted, fun hunnoted => ?_⟩
  · rw [refuses_served_iff T hnew]
  · rw [refuses_iff_of_beginsUnnoted T hnew hunnoted]

end SharedConnection

/-! ### The transactions of a table -/

namespace Table

/-- A table keeps the rows that its transaction was begun with. -/
def transactions : Transactions Table (List Stored) where
  contents := Table.rows
  base := Table.saved
  isSome_base _ := rfl
  begun := by
    rintro ⟨rows, _ | saved, changed⟩ c' h <;> cases h
    exact ⟨rfl, rfl, rfl⟩
  locked := by
    rintro ⟨rows, _ | saved, changed⟩ c' h <;> cases h
    exact ⟨rfl, rfl, rfl⟩
  committed := by
    rintro ⟨rows, _ | saved, changed⟩ c' h <;> cases h
    exact ⟨rfl, rfl⟩
  rolledBack := by
    rintro ⟨rows, _ | saved, changed⟩ c' h <;> cases h
    exact ⟨rfl, rfl⟩
  failed := by
    rintro ⟨rows, saved, changed⟩ c' fault k hk h
    obtain ⟨control, rfl⟩ : ∃ control, k = .control control := by
      rcases hk with rfl | ⟨control, rfl⟩
      · exact ⟨.begin, rfl⟩
      · exact ⟨control, rfl⟩
    -- Nothing is left behind by what fails.
    left
    cases control <;> cases saved <;> cases h <;> exact ⟨rfl, rfl⟩

end Table

namespace Sample

/-- The first unit reads with a lock, a batch ends its transaction and another one that it began
    itself, and the second unit reads with a lock. -/
def handedOver : List (Request Question Change) :=
  [.fetch .all locking, .batch [.control .commit, .control .begin, .control .rollback],
    .fetch .all { locks := true, unit := some 1 }]

end Sample

namespace SharedConnection

open Sample

/-- The first unit runs into the lock of the second one, which nothing of the first lock stands in
    the way of. -/
theorem timedOut_iff_origin_handedOver :
    (new ({} : Table)).BeginsUnnoted handedOver ∧
    (((new ({} : Table)).served handedOver).serve (.execute .clear { unit := some 0 })).1.TimedOut ∧
    ¬(((new ({} : Table)).served handedOver).serve (.execute .clear plain)).1.TimedOut := by
  have hunnoted : (new ({} : Table)).BeginsUnnoted handedOver := by
    refine ⟨nofun, fun changes hbatch hbegins => ?_, nofun, trivial⟩
    cases hbatch
    -- The batch leaves no transaction running.
    cases hbegins.1
  have horigin : Origin ({} : Table) handedOver (handedOver.take 2)
      (.fetch .all { locks := true, unit := some 1 }) [] :=
    ⟨rfl, ⟨rfl, _, List.mem_cons_self, rfl⟩, rfl⟩
  refine ⟨hunnoted, ?_, ?_⟩
  · exact ((timedOut_iff_origin Table.transactions rfl handedOver rfl).2.2 hunnoted).2
      (.inl ⟨_, _, _, 1, horigin, rfl, by decide⟩)
  · rintro ⟨_, ⟨⟩⟩

/-- **A lock can outlive its transaction.**  The first unit reads with a lock, and its transaction is
    ended, by a commit of its own after which somebody begins another transaction, or by a batch that
    does both; the second unit is refused in the new transaction, which no locking read opened. -/
theorem ended_lock_refuses :
    ((new ({} : Table)).served [.fetch .all locking]).Holds 0 ∧
    ((new ({} : Table)).served [.fetch .all locking,
      .fetch (.change (.control .commit)) { unit := some 0 }]).inTransaction = false ∧
    (((new ({} : Table)).served [.fetch .all locking,
      .fetch (.change (.control .commit)) { unit := some 0 },
      .batch [.control .begin]]).serve (.fetch .all plain)).1.TimedOut ∧
    ((new ({} : Table)).served [.fetch .all locking, .batch [.control .commit]]).inTransaction =
      false ∧
    (((new ({} : Table)).served [.fetch .all locking,
      .batch [.control .commit, .control .begin]]).serve (.fetch .all plain)).1.TimedOut :=
  ⟨⟨rfl, rfl⟩, rfl, ⟨_, rfl⟩, rfl, ⟨_, rfl⟩⟩

end SharedConnection

end EntityQuery
