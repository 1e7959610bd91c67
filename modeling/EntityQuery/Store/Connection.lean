import EntityQuery.Store.Failure
import EntityQuery.Value.Row
import EntityQuery.Value.Stored

namespace EntityQuery

/-!
# Connections

A connection carries out statements, one after the other. Which statements there are and what they do is
up to the store; a session asks of a connection what `Connection` lists. Any of it can fail, and what has
failed can still have left its mark on the connection.

What a store documents about transactions is in `Transactions`.
-/

/-- Statements that begin and end transactions. -/
inductive Control where
  | begin
  | commit
  | rollback
deriving DecidableEq, Repr

/-- Rows as they are answered, one by one, until there are no more or the store fails. -/
inductive Answering (κ : Type) where
  /-- There are no more rows; the connection goes on. -/
  | finished (connection : κ)
  /-- The store gives up. -/
  | failed (fault : Fault) (connection : κ)
  /-- One more row. Who stops behind it leaves the connection as it then is. -/
  | row (values : List Stored) (stopped : κ) (rest : Answering κ)

/-- Rows that are all there, from a connection that they leave alone. -/
def Answering.ofRows {κ : Type} (connection : κ) : List (List Stored) → Answering κ
  | [] => .finished connection
  | values :: rows => .row values connection (ofRows connection rows)

/-- Connections in the states `κ`, with the statements that answer and those that change something. -/
class Connection (κ : Type) (Question Change : outParam Type) where
  /-- Whether a transaction is running; without one each statement stands for itself. -/
  inTransaction : κ → Bool
  /-- The columns of an answer, and its rows. -/
  ask : Question → κ → List String × Answering κ
  /-- Carries out a change, and counts the rows that it touched. -/
  execute : Change → κ → Except Fault Nat × κ
  /-- Carries out a statement of a batch. -/
  run : Change → κ → Except Fault Unit × κ
  /-- The statements of a batch that begin and end transactions. -/
  control : Control → Change
  /-- The statement that begins a transaction and locks the store for writing. -/
  lock : Change

/-- What is documented of the transactions of a store. -/
structure Transactions (κ : Type) {Question Change : Type} [Connection κ Question Change] (α : Type) where
  /-- All that is stored. -/
  contents : κ → α
  /-- What a rollback goes back to, while a transaction is running. -/
  base : κ → Option α
  /-- There is something to go back to exactly as long as a transaction is running. -/
  isSome_base : ∀ c, (base c).isSome = Connection.inTransaction c
  /-- A transaction is begun outside of any other one, and changes nothing yet. -/
  begun : ∀ {c c'}, Connection.run (Connection.control κ .begin) c = (.ok (), c') →
    base c = none ∧ base c' = some (contents c) ∧ contents c' = contents c
  /-- So is one with a lock. -/
  locked : ∀ {c c'}, Connection.run (Connection.lock κ) c = (.ok (), c') →
    base c = none ∧ base c' = some (contents c) ∧ contents c' = contents c
  /-- A commit keeps what is stored. -/
  committed : ∀ {c c'}, Connection.run (Connection.control κ .commit) c = (.ok (), c') →
    base c' = none ∧ contents c' = contents c
  /-- A rollback brings back what was stored when the transaction was begun. -/
  rolledBack : ∀ {c c'}, Connection.run (Connection.control κ .rollback) c = (.ok (), c') →
    base c' = none ∧ base c = some (contents c')
  /-- What fails leaves everything as it was, or the store rolls the transaction back. -/
  failed : ∀ {c c' fault k}, (k = Connection.lock κ ∨ ∃ control, k = Connection.control κ control) →
    Connection.run k c = (.error fault, c') →
    base c' = base c ∧ contents c' = contents c ∨ base c' = none ∧ base c = some (contents c')

namespace Transactions

variable {κ Question Change α : Type} [Connection κ Question Change] (T : Transactions κ α) {c c' : κ}

/-- Without a transaction there is nothing to go back to. -/
theorem base_eq_none_iff : T.base c = none ↔ Connection.inTransaction c = false := by
  rw [← T.isSome_base c, Option.isSome_eq_false_iff, Option.isNone_iff_eq_none]

/-- A lock that the store refuses opens no transaction, and changes nothing. -/
theorem lock_refused {fault : Fault} (h : Connection.run (Connection.lock κ) c = (.error fault, c'))
    (hclosed : Connection.inTransaction c = false) :
    Connection.inTransaction c' = false ∧ T.contents c' = T.contents c := by
  have hnone := T.base_eq_none_iff.2 hclosed
  rcases T.failed (.inl rfl) h with ⟨hbase, hcontents⟩ | ⟨_, hback⟩
  · exact ⟨T.base_eq_none_iff.1 (hbase.trans hnone), hcontents⟩
  · cases hnone.symm.trans hback

end Transactions

namespace Connection

/-- A store refuses a statement. -/
def refuse (reason : String) : StoreFailure := ⟨.statement, reason⟩

/-- The stored form of a value. What is not a number is stored as nothing. -/
def bind (value : Value) : Except StoreFailure Stored :=
  match value.store? with
  | some (.real x) => .ok (if x.isNaN then .null else .real x)
  | some stored => .ok stored
  | none => .error (refuse Value.unstorable)

end Connection

end EntityQuery
