import EntityQuery.Store.Session
import Mathlib.Data.List.Basic

namespace EntityQuery

/-!
# Exclusion by locking reads

Runs over a shared connection: statements on behalf of units of work, and batches on nobody's behalf,
which begin and end transactions, in any order.  Nothing is assumed about the connection.

* `SharedConnection.Keeps`, `SharedConnection.Begins` — what a request does to the transaction that it
  finds running, told by the moments that the connection goes through;
* `SharedConnection.holder_of_keeps` — as long as one transaction runs, nobody else becomes its holder;
* `SharedConnection.locking_read_excludes` — the guarantee that a locking read gives to its unit of work.

The guarantee is given by the read that opens the transaction, or by one inside a transaction that is held
already.  A transaction that somebody began is held by nobody, and a locking read inside it changes nothing
about that (`SharedConnection.begun_transaction_admits_others`).
-/

/-- What a shared connection is asked for: a statement on behalf of a unit of work, or a batch on
    nobody's. -/
inductive Request (Question Change : Type) where
  | fetch (question : Question) (directives : Directives)
  | execute (change : Change) (directives : Directives)
  | batch (changes : List Change)

/-- What a request is answered with. -/
inductive Answer where
  | rows (outcome : Except Error RowSet)
  | changed (outcome : Except Error Nat)
  | done (outcome : Except Error Unit)

/-- The error that a request failed with. -/
def Answer.error? : Answer → Option Error
  | .rows (.error e) | .changed (.error e) | .done (.error e) => some e
  | _ => none

namespace Request

variable {Question Change : Type}

/-- What accompanies a statement; nothing accompanies a batch. -/
def directives? : Request Question Change → Option Directives
  | .fetch _ directives | .execute _ directives => some directives
  | .batch _ => none

/-- The unit of work that reads with a lock. -/
def locker? : Request Question Change → Option UnitOfWork
  | .fetch _ directives => if directives.locks then directives.unit else none
  | _ => none

/-- A statement that is not on behalf of the given unit of work. -/
def isForeign (u : UnitOfWork) : Request Question Change → Bool
  | .fetch _ directives | .execute _ directives => directives.unit != some u
  | .batch _ => false

end Request

namespace SharedConnection

variable {κ Question Change : Type} [Connection κ Question Change] {s : SharedConnection κ}
  {u : UnitOfWork} {request : Request Question Change} {run : List (Request Question Change)}
  {question : Question} {change : Change} {directives : Directives}

/-! ### Runs -/

/-- One request. -/
def serve (s : SharedConnection κ) : Request Question Change → Answer × SharedConnection κ
  | .fetch question directives => (s.fetch question directives).map .rows id
  | .execute change directives => (s.execute change directives).map .changed id
  | .batch changes => (batch changes s).map .done id

/-- The connection after one request after the other. -/
def served (s : SharedConnection κ) (run : List (Request Question Change)) : SharedConnection κ :=
  run.foldl (fun s request => (s.serve request).2) s

/-- A run in two parts. -/
theorem served_append (s : SharedConnection κ) (run more : List (Request Question Change)) :
    s.served (run ++ more) = (s.served run).served more :=
  List.foldl_append

/-! ### What is done before a statement -/

/-- A holder is noted only while a transaction is running. -/
theorem settle_of_inTransaction (h : s.inTransaction = true) : s.settle = s := if_pos h

/-- Where no transaction is running, the note of a holder is dropped. -/
theorem settle_of_closed (h : s.inTransaction = false) : s.settle = { s with holder := none } := by
  rw [settle, h, if_neg Bool.false_ne_true]

/-- Dropping a note leaves the connection alone. -/
theorem connection_settle : s.settle.connection = s.connection := by
  unfold settle
  split <;> rfl

/-- So it begins and ends no transaction. -/
theorem inTransaction_settle : s.settle.inTransaction = s.inTransaction := by
  rw [inTransaction, connection_settle, inTransaction]

/-- While no transaction is running, nobody is refused. -/
theorem refuses_of_closed (h : s.inTransaction = false) (unit : Option UnitOfWork) :
    s.refuses unit = false := by
  rw [refuses, h, Bool.and_false, Bool.false_and]

/-- Nothing is locked a second time. -/
theorem acquire_of_inTransaction (h : s.inTransaction = true) :
    s.acquire directives = (.ok (), s) := by
  rw [acquire, h, Bool.not_true, Bool.and_false, if_neg Bool.false_ne_true]

/-- Only a locking read opens a transaction. -/
theorem acquire_of_not_locks (h : directives.locks = false) : s.acquire directives = (.ok (), s) := by
  rw [acquire, h, Bool.false_and, if_neg Bool.false_ne_true]

/-- Where no transaction is running, a locking read asks the store for one. -/
theorem acquire_of_closed (hlocks : directives.locks = true) (hclosed : s.inTransaction = false) :
    s.acquire directives =
      match Connection.run (Connection.lock κ) s.connection with
      | (.ok (), connection) => (.ok (), ⟨connection, directives.unit⟩)
      | (.error fault, connection) => (.error (.store fault.failure), { s with connection }) := by
  rw [acquire, hlocks, hclosed]
  exact if_pos rfl

/-- A statement that is let through runs after the note was settled and the lock was taken. -/
theorem fetch_of_admitted (h : s.refuses directives.unit = false) :
    s.fetch question directives =
      match s.settle.acquire directives with
      | (.error error, s) => (.error error, s)
      | (.ok (), s) => s.ask question := by
  rw [fetch, h]
  exact if_neg Bool.false_ne_true

/-! ### The holder during one statement -/

/-- A question does not change the holder. -/
theorem holder_ask : (s.ask question).2.holder = s.holder := rfl

/-- A read leaves the holder that it finds noted when it has its lock. -/
theorem holder_fetch_of_admitted (h : s.refuses directives.unit = false) :
    (s.fetch question directives).2.holder = (s.settle.acquire directives).2.holder := by
  rw [fetch_of_admitted h]
  split
  · rename_i hacquire
    rw [hacquire]
  · rename_i hacquire
    rw [hacquire, holder_ask]

/-- A read inside a transaction leaves its holder alone. -/
theorem holder_fetch (h : s.inTransaction = true) :
    (s.fetch question directives).2.holder = s.holder := by
  cases hrefuses : s.refuses directives.unit with
  | true => rw [fetch, if_pos hrefuses]
  | false =>
    rw [holder_fetch_of_admitted hrefuses, settle_of_inTransaction h, acquire_of_inTransaction h]

/-- So does a change. -/
theorem holder_execute (h : s.inTransaction = true) :
    (s.execute change directives).2.holder = s.holder := by
  cases hrefuses : s.refuses directives.unit with
  | true => rw [execute, if_pos hrefuses]
  | false =>
    rw [execute, hrefuses, if_neg Bool.false_ne_true, settle_of_inTransaction h]

/-- A batch is carried out first, and then the note is settled. -/
theorem batch_eq (changes : List Change) (s : SharedConnection κ) :
    (batch changes s).2 = { s with connection := (runAll s.connection changes).2 }.settle := rfl

/-- So a batch leaves behind the connection that its changes do. -/
theorem inTransaction_batch (changes : List Change) :
    (batch changes s).2.inTransaction =
      Connection.inTransaction (runAll s.connection changes).2 := by
  rw [batch_eq, inTransaction_settle]
  rfl

/-- A batch that leaves a transaction running leaves the note as it finds it. -/
theorem holder_batch {changes : List Change} (hafter : (batch changes s).2.inTransaction = true) :
    (batch changes s).2.holder = s.holder := by
  rw [batch_eq, inTransaction_settle] at hafter
  rw [batch_eq, settle_of_inTransaction hafter]

/-- A batch that leaves no transaction running drops the note. -/
theorem holder_batch_of_closed {changes : List Change}
    (hafter : (batch changes s).2.inTransaction = false) : (batch changes s).2.holder = none := by
  rw [batch_eq, inTransaction_settle] at hafter
  rw [batch_eq, settle_of_closed hafter]

/-! ### Transactions during one request -/

/-- The states of a connection behind each change of a batch, up to the first change that fails. -/
def trail (connection : κ) : List Change → List κ
  | [] => []
  | change :: changes =>
    match Connection.run change connection with
    | (.error _, connection) => [connection]
    | (.ok (), connection) => connection :: trail connection changes

/-- A batch leaves behind the last state that it goes through. -/
theorem runAll_mem_trail (connection : κ) (changes : List Change) :
    (runAll connection changes).2 ∈ connection :: trail connection changes := by
  induction changes generalizing connection with
  | nil => exact List.mem_cons_self
  | cons change changes ih =>
    rcases hrun : Connection.run change connection with ⟨_ | _, next⟩
    · simp only [runAll, trail, hrun]
      exact List.mem_cons_of_mem _ List.mem_cons_self
    · simp only [runAll, trail, hrun]
      exact List.mem_cons_of_mem _ (ih next)

/-- The states that a connection goes through. A single statement cannot end one transaction and begin
    another, so that the states before and behind it tell enough. -/
def moments (s : SharedConnection κ) : Request Question Change → List κ
  | .batch changes => s.connection :: trail s.connection changes
  | request => [s.connection, (s.serve request).2.connection]

/-- The transaction that a request finds running goes on. -/
def Keeps (s : SharedConnection κ) (request : Request Question Change) : Prop :=
  ∀ c ∈ s.moments request, Connection.inTransaction c = true

/-- The request leaves open a transaction of its own: at some moment none was running. -/
def Begins (s : SharedConnection κ) (request : Request Question Change) : Prop :=
  (s.serve request).2.inTransaction = true ∧
    ∃ c ∈ s.moments request, Connection.inTransaction c = false

/-- The first moment is that before the request. -/
theorem Keeps.isOpen (h : s.Keeps request) : s.inTransaction = true := by
  apply h
  cases request <;> exact List.mem_cons_self

/-- A transaction that goes on is still running behind the request. -/
theorem Keeps.isOpen_serve (h : s.Keeps request) : (s.serve request).2.inTransaction = true := by
  cases request with
  | fetch question directives => exact h _ (List.mem_cons_of_mem _ List.mem_cons_self)
  | execute change directives => exact h _ (List.mem_cons_of_mem _ List.mem_cons_self)
  | batch changes =>
    show (batch changes s).2.inTransaction = true
    rw [inTransaction_batch]
    exact h _ (runAll_mem_trail s.connection changes)

/-- A transaction that is running after a request was running all the time, or the request began it. -/
theorem inTransaction_serve_iff :
    (s.serve request).2.inTransaction = true ↔ s.Keeps request ∨ s.Begins request := by
  constructor
  · intro hafter
    by_cases hkeeps : s.Keeps request
    · exact .inl hkeeps
    · obtain ⟨c, hc⟩ := Classical.not_forall.1 hkeeps
      obtain ⟨hmoment, hclosed⟩ := Classical.not_imp.1 hc
      exact .inr ⟨hafter, c, hmoment, Bool.eq_false_iff.2 hclosed⟩
  · rintro (hkeeps | hbegins)
    · exact hkeeps.isOpen_serve
    · exact hbegins.1

/-- A transaction that a single statement leaves open as its own was not running before. -/
theorem Begins.isClosed (h : s.Begins request) (hstatement : request.directives? = some directives) :
    s.inTransaction = false := by
  obtain ⟨hafter, c, hc, hclosed⟩ := h
  -- It is running after the statement, so the other moment is the closed one.
  have hcases : ∀ r : SharedConnection κ, r.inTransaction = true →
      c ∈ [s.connection, r.connection] → s.inTransaction = false := by
    rintro r hr hmem
    rcases List.mem_pair.1 hmem with rfl | rfl
    · exact hclosed
    · exact absurd hr (by rw [inTransaction, hclosed]; exact Bool.false_ne_true)
  cases request with
  | fetch question directives' => exact hcases _ hafter hc
  | execute change directives' => exact hcases _ hafter hc
  | batch changes => cases hstatement

/-- **The holder stays** as long as its transaction goes on, whatever is done. -/
theorem holder_of_keeps (h : s.Keeps request) : (s.serve request).2.holder = s.holder := by
  cases request with
  | fetch question directives => exact holder_fetch h.isOpen
  | execute change directives => exact holder_execute h.isOpen
  | batch changes => exact holder_batch h.isOpen_serve

/-- The running transaction goes on throughout a run. -/
def GoesOn (s : SharedConnection κ) : List (Request Question Change) → Prop
  | [] => s.inTransaction = true
  | request :: run => s.Keeps request ∧ GoesOn (s.serve request).2 run

/-- So it is running from the start. -/
theorem GoesOn.head (h : s.GoesOn run) : s.inTransaction = true := by
  cases run with
  | nil => exact h
  | cons request run => exact h.1.isOpen

/-! ### Exclusion -/

/-- The unit of work holds the lock of the running transaction. -/
structure Holds (s : SharedConnection κ) (u : UnitOfWork) : Prop where
  isOpen : s.inTransaction = true
  holder : s.holder = some u

/-- It holds the lock as long as the transaction goes on. -/
theorem Holds.serve (h : s.Holds u) (hkeeps : s.Keeps request) : (s.serve request).2.Holds u :=
  ⟨hkeeps.isOpen_serve, (holder_of_keeps hkeeps).trans h.holder⟩

/-- A unit of work that holds the lock holds it throughout the transaction. -/
theorem Holds.served (h : s.Holds u) (hgoesOn : s.GoesOn run) : (s.served run).Holds u := by
  induction run generalizing s with
  | nil => exact h
  | cons request run ih => exact ih (h.serve hgoesOn.1) hgoesOn.2

/-- A locking read that succeeds leaves the lock with its unit of work, unless it joins a
    transaction that nobody holds. -/
theorem holds_of_fetch {set : RowSet} (hlocks : directives.locks = true)
    (hunit : directives.unit = some u) (hread : (s.fetch question directives).1 = .ok set)
    (hheld : s.inTransaction = true → s.holder ≠ none)
    (hopen : (s.fetch question directives).2.inTransaction = true) :
    (s.fetch question directives).2.Holds u := by
  refine ⟨hopen, ?_⟩
  have hadmitted : s.refuses directives.unit = false := by
    -- A read that is refused does not succeed.
    rw [← Bool.not_eq_true]
    intro hrefuses
    rw [fetch, if_pos hrefuses] at hread
    cases hread
  cases htransaction : s.inTransaction with
  | true =>
    -- Somebody holds the lock, and it is the unit itself that is not refused.
    rw [holder_fetch htransaction]
    obtain ⟨v, hv⟩ := Option.isSome_iff_exists.1 (Option.isSome_iff_ne_none.2 (hheld htransaction))
    have hsame : v = u := by
      simpa [refuses, htransaction, hunit, hv] using hadmitted
    rw [hv, hsame]
  | false =>
    -- The read opens the transaction: had the store not done so, the read would have failed.
    have hclosed : s.settle.inTransaction = false := inTransaction_settle.trans htransaction
    rw [holder_fetch_of_admitted hadmitted]
    rw [fetch_of_admitted hadmitted] at hread
    rw [acquire_of_closed hlocks hclosed] at hread ⊢
    split
    · exact hunit
    · rename_i hlock
      rw [hlock] at hread
      cases hread

/-- A unit of work that does not hold the lock is refused. -/
theorem Holds.refuses (h : s.Holds u) {unit : Option UnitOfWork} (hunit : (unit != some u) = true) :
    s.refuses unit = true := by
  rw [bne_iff_ne] at hunit
  simp only [SharedConnection.refuses, h.isOpen, h.holder, Option.isSome_some, Bool.and_true,
    Bool.true_and, bne_iff_ne]
  exact hunit.symm

/-- A statement that is refused is answered with the lock, and nothing is done. -/
theorem serve_of_refuses (hstatement : request.directives? = some directives)
    (hrefuses : s.refuses directives.unit = true) :
    (s.serve request).1.error? = some lockTimeout ∧ (s.serve request).2 = s := by
  cases request with
  | fetch question directives' =>
    cases hstatement
    have hfetch : s.fetch question directives = (.error lockTimeout, s) := if_pos hrefuses
    rw [serve, hfetch]
    exact ⟨rfl, rfl⟩
  | execute change directives' =>
    cases hstatement
    have hexecute : s.execute change directives = (.error lockTimeout, s) := if_pos hrefuses
    rw [serve, hexecute]
    exact ⟨rfl, rfl⟩
  -- A batch is no statement: it is never refused.
  | batch changes => cases hstatement

/-- **Statements of others are refused**, and change nothing. -/
theorem serve_of_isForeign (h : s.Holds u) (hforeign : request.isForeign u = true) :
    (s.serve request).1.error? = some lockTimeout ∧ (s.serve request).2 = s := by
  cases request with
  | fetch question directives => exact serve_of_refuses rfl (h.refuses hforeign)
  | execute change directives => exact serve_of_refuses rfl (h.refuses hforeign)
  | batch changes => cases hforeign

/-- The statements of others might as well not have been sent. -/
theorem Holds.served_filter (h : s.Holds u) (hgoesOn : s.GoesOn run) :
    s.served (run.filter fun request => !request.isForeign u) = s.served run := by
  induction run generalizing s with
  | nil => rfl
  | cons request run ih =>
    -- The hold is kept, as long as no request ends the transaction.
    have hrest := ih (h.serve hgoesOn.1) hgoesOn.2
    cases hforeign : request.isForeign u with
    | true =>
      rw [List.filter_cons_of_neg (by rw [hforeign]; decide)]
      -- A foreign request leaves the connection as it was.
      show s.served _ = (s.serve request).2.served run
      rw [← hrest, (serve_of_isForeign h hforeign).2]
    | false =>
      rw [List.filter_cons_of_pos (by rw [hforeign]; decide)]
      exact hrest

/-- **A locking read excludes other units of work.**  Once it has succeeded, and unless it joined a
    transaction that nobody held, every statement of another unit is refused and changes nothing
    until that transaction is ended, whatever is done in between.  So nothing that others send is
    mixed into the transaction. -/
theorem locking_read_excludes {set : RowSet} (hlocks : directives.locks = true)
    (hunit : directives.unit = some u) (hread : (s.fetch question directives).1 = .ok set)
    (hheld : s.inTransaction = true → s.holder ≠ none)
    (hgoesOn : (s.fetch question directives).2.GoesOn run) :
    (∀ request : Request Question Change, request.isForeign u = true →
      (((s.fetch question directives).2.served run).serve request).1.error? = some lockTimeout ∧
      (((s.fetch question directives).2.served run).serve request).2 =
        (s.fetch question directives).2.served run) ∧
    (s.fetch question directives).2.served (run.filter fun request => !request.isForeign u) =
      (s.fetch question directives).2.served run := by
  have hholds := holds_of_fetch hlocks hunit hread hheld hgoesOn.head
  exact ⟨fun request hforeign => serve_of_isForeign (hholds.served hgoesOn) hforeign,
    hholds.served_filter hgoesOn⟩

end SharedConnection

/-! ### Two units of work -/

namespace Sample

/-- The first unit reads with a lock. -/
def locking : Directives where
  locks := true
  unit := some 0

/-- The second unit reads and writes without locking anything. -/
def plain : Directives where
  unit := some 1

/-- A transaction of the first unit: others try to read and to begin, and it writes itself. -/
def turns : List (Request Question Change) :=
  [.fetch .all plain, .batch [.control .begin], .execute (.insert (.integer 2)) { unit := some 0 }]

/-- A transaction that somebody began. -/
def begun : Session := (SharedConnection.serve {} (.batch [.control .begin])).2

end Sample

namespace SharedConnection

open Sample

/-- Inside the transaction of the first unit, the second one cannot write. -/
theorem locking_read_excludes_writer :
    ((served (fetch .all locking ({} : Session)).2 turns).serve
      (.execute (.insert (.integer 3)) plain)).1.error? = some lockTimeout ∧
    (served (fetch .all locking ({} : Session)).2 turns).connection.rows = [.integer 2] := by
  have hread : (fetch .all locking ({} : Session)).1 = .ok ⟨["n"], []⟩ := rfl
  have hgoesOn : (fetch .all locking ({} : Session)).2.GoesOn turns := by
    refine ⟨?_, ?_, ?_, rfl⟩ <;>
      · intro c hc
        rcases List.mem_pair.1 hc with rfl | rfl <;> rfl
  obtain ⟨hrefused, _⟩ := locking_read_excludes rfl rfl hread nofun hgoesOn
  exact ⟨(hrefused (.execute (.insert (.integer 3)) plain) rfl).1, rfl⟩

/-- **A locking read that joins a transaction excludes nobody.**  The second unit writes into the
    transaction that the first one reads in with a lock, and its write is lost when that is rolled
    back. -/
theorem begun_transaction_admits_others :
    (begun.fetch .all locking).1 = .ok ⟨["n"], []⟩ ∧
    (begun.fetch .all locking).2.inTransaction = true ∧
    ((begun.fetch .all locking).2.serve (.execute (.insert (.integer 3)) plain)).1 =
      .changed (.ok 1) ∧
    ((begun.fetch .all locking).2.served [.execute (.insert (.integer 3)) plain]).connection.rows =
      [.integer 3] ∧
    ((begun.fetch .all locking).2.served [.execute (.insert (.integer 3)) plain,
      .batch [.control .rollback]]).connection.rows = [] :=
  ⟨rfl, rfl, rfl, rfl, rfl⟩

end SharedConnection

end EntityQuery
