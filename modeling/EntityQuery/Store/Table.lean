import EntityQuery.Store.Connection

namespace EntityQuery

/-!
# A table with transactions

The smallest store there is: one connection to one table `probe` with one column `n`, whose values do
not repeat. A running transaction remembers the rows at its opening: a rollback brings them back, a
commit forgets them. A statement that fails changes nothing.
-/

/-- Statements that change something. -/
inductive Change where
  | insert (n : Value)
  | clear
  | control (control : Control)

/-- Statements that answer with rows. -/
inductive Question where
  /-- All values of the table in the order of their insertion. -/
  | all
  /-- The given values under the given names. -/
  | row (cells : List (String × Value))
  /-- Bytes that are no text. -/
  | bytes (bytes : List UInt8)
  /-- A change, which answers with no columns and no rows. -/
  | change (change : Change)

/-- The connection, with the rows at the opening of the running transaction and the number of rows
    of the last change. -/
structure Table where
  rows : List Stored := []
  saved : Option (List Stored) := none
  changed : Nat := 0

/-- Two values that cannot both be in the table. Nothing never stands in the way. -/
def Stored.conflicts (a b : Stored) : Bool := a != .null && a.key == b.key

namespace Table

/-- A statement that makes no sense as things are. -/
def misplaced (reason : String) : Fault := ⟨some 1, reason⟩

/-- The stored form of a value that is sent along with a statement. -/
def bind (value : Value) : Except Fault Stored :=
  (Connection.bind value).mapError fun failure => ⟨none, failure.reason⟩

/-- Begins or ends a transaction. -/
def control (t : Table) : Control → Except Fault Table
  | .begin =>
    match t.saved with
    | some _ => .error (misplaced "cannot start a transaction within a transaction")
    | none => .ok { t with saved := some t.rows }
  | .commit =>
    match t.saved with
    | some _ => .ok { t with saved := none }
    | none => .error (misplaced "cannot commit - no transaction is active")
  | .rollback =>
    match t.saved with
    | some rows => .ok { t with rows, saved := none }
    | none => .error (misplaced "cannot rollback - no transaction is active")

/-- The table after a change. -/
def change (t : Table) : Change → Except Fault Table
  | .insert n => do
    let stored ← bind n
    if t.rows.any stored.conflicts then throw ⟨some 2067, "UNIQUE constraint failed: probe.n"⟩
    return { t with rows := t.rows ++ [stored], changed := 1 }
  | .clear => .ok { t with rows := [], changed := t.rows.length }
  | .control k => t.control k

/-- What a question answers before it is read: the columns, the rows and the table after it. -/
def answer (t : Table) : Question → Except Fault (List String × List (List Stored) × Table)
  | .all => .ok (["n"], t.rows.map ([·]), t)
  | .row cells => do
    let row ← cells.mapM fun cell => bind cell.2
    return (cells.map Prod.fst, [row], t)
  | .bytes bytes => .ok (["b"], [[.blob bytes]], t)
  | .change k => do return ([], [], ← t.change k)

/-- Nothing is left behind by what fails. -/
def carryOut {α : Type} (t : Table) (f : Table → α) : Except Fault Table → Except Fault α × Table
  | .ok t' => (.ok (f t'), t')
  | .error fault => (.error fault, t)

/-- The table is locked by whoever begins a transaction. -/
instance : Connection Table Question Change where
  inTransaction t := t.saved.isSome
  ask question t :=
    match t.answer question with
    | .ok (columns, rows, t') => (columns, .ofRows t' rows)
    | .error fault => ([], .failed fault t)
  execute k t := t.carryOut Table.changed (t.change k)
  run k t := t.carryOut (fun _ => ()) (t.change k)
  control := .control
  lock := .control .begin

end Table

end EntityQuery
