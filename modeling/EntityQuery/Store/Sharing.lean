import EntityQuery.Error.Basic
import EntityQuery.Query.Shape
import EntityQuery.Store.Connection
import EntityQuery.Store.Exchange

namespace EntityQuery

/-!
# Connections with a write lock

Several units of work share one connection. A locking read opens a transaction, if none is
running, and its unit of work holds the write lock until that transaction is ended; meanwhile the
statements of all others are refused. A transaction that was opened otherwise locks nobody out.

The unit is noted as holder before its statement runs, so a locking read that fails still leaves
its transaction open. Where a statement of the holder ends the transaction, the note is cleared by
the next statement that finds no transaction running.
-/

namespace Answering

variable {κ : Type}

/-- The values of the rows. Reading stops at the first row that cannot be read. -/
def read : Answering κ → Except Error (List (List Value)) × κ
  | .finished connection => (.ok [], connection)
  | .failed fault connection => (.error (.store fault.failure), connection)
  | .row values stopped rest =>
    match values.mapM Value.ofStored with
    | .error fault => (.error (.reading fault), stopped)
    | .ok cells => rest.read.map (fun rows => rows.map (cells :: ·)) id

end Answering

/-- A connection, and the unit of work whose locking read opened the transaction that is running. -/
structure SharedConnection (κ : Type) where
  connection : κ
  holder : Option UnitOfWork := none

namespace SharedConnection

variable {κ Question Change : Type} [Connection κ Question Change]

/-- Whether a transaction is running on the connection. -/
def inTransaction (s : SharedConnection κ) : Bool := Connection.inTransaction s.connection

/-- Whether another unit of work than the given one holds the write lock. -/
def refuses (s : SharedConnection κ) (unit : Option UnitOfWork) : Bool :=
  s.holder.isSome && s.inTransaction && s.holder != unit

/-- The error of a statement that another unit of work keeps out. -/
def lockTimeout : Error := .store ⟨.lockTimeout, "write lock is held by another unit of work"⟩

/-- Nobody holds the lock when no transaction is running. -/
def settle (s : SharedConnection κ) : SharedConnection κ :=
  if s.inTransaction then s else { s with holder := none }

/-- Opens the transaction of a locking read. The unit is noted only if the store has opened it. -/
def acquire (directives : Directives) (s : SharedConnection κ) :
    Except Error Unit × SharedConnection κ :=
  if directives.locks && !s.inTransaction then
    match Connection.run (Connection.lock κ) s.connection with
    | (.ok (), connection) => (.ok (), ⟨connection, directives.unit⟩)
    | (.error fault, connection) => (.error (.store fault.failure), { s with connection })
  else (.ok (), s)

/-- The rows a question answers with. What the question changed stands even when its answer cannot be
    read. -/
def ask (question : Question) (s : SharedConnection κ) : Except Error RowSet × SharedConnection κ :=
  let (columns, answering) := Connection.ask question s.connection
  answering.read.map (fun rows => rows.map (RowSet.mk columns)) ({ s with connection := · })

/-- Asks a question, unless another unit of work holds the lock. -/
def fetch (question : Question) (directives : Directives) (s : SharedConnection κ) :
    Except Error RowSet × SharedConnection κ :=
  if s.refuses directives.unit then (.error lockTimeout, s)
  else
    match s.settle.acquire directives with
    | (.error error, s) => (.error error, s)
    | (.ok (), s) => s.ask question

/-- The number of rows that a change touched. A lock is not acquired for it. -/
def execute (change : Change) (directives : Directives) (s : SharedConnection κ) :
    Except Error Nat × SharedConnection κ :=
  if s.refuses directives.unit then (.error lockTimeout, s)
  else
    let (outcome, connection) := Connection.execute change s.connection
    (outcome.mapError fun fault => .store fault.failure, { s.settle with connection })

/-- The changes one by one, up to the first that fails. -/
def runAll (connection : κ) : List Change → Except Fault Unit × κ
  | [] => (.ok (), connection)
  | change :: changes =>
    match Connection.run change connection with
    | (.error fault, connection) => (.error fault, connection)
    | (.ok (), connection) => runAll connection changes

/-- Runs changes on nobody's behalf, whoever holds the lock. -/
def batch (changes : List Change) (s : SharedConnection κ) : Except Error Unit × SharedConnection κ :=
  let (outcome, connection) := runAll s.connection changes
  (outcome.mapError fun fault => .store fault.failure, { s with connection }.settle)

/-- A shared connection as a store, whose questions and changes are statements. -/
def store {κ : Type} [Connection κ Bound Bound] : Store (SharedConnection κ) where
  fetch := fetch
  execute := execute

end SharedConnection

end EntityQuery
