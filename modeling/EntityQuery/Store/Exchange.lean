import EntityQuery.Error.Basic
import EntityQuery.Query.Shape
import EntityQuery.Value.Row

namespace EntityQuery

/-!
# Exchange with a store

A store answers reads with rows and changes with the number of rows changed; what it answers may
depend on a state of its own. An exchange also keeps the statements that were sent and what is told
to the owner of the records in memory, in order, whether a call succeeds or not.
-/

/-- A store as the engine uses it: it answers a statement and is in another state afterwards. Nothing is
    said of what it keeps. -/
structure Store (σ : Type) where
  fetch : Bound → Directives → σ → Except Error RowSet × σ
  execute : Bound → Directives → σ → Except Error Nat × σ

/-- Whether rows or a count of the changed ones is asked for. -/
inductive SentKind where
  | fetch
  | execute
deriving DecidableEq, Repr

/-- A statement that was sent. -/
structure Sent where
  kind : SentKind
  statement : Bound
  directives : Directives

/-- What the owner of records in memory has to know. -/
inductive Event where
  | loaded (entity : String) (ids : List Value) (readOnly : Bool)
  /-- The records of an entity may no longer agree with the store. -/
  | invalidated (entity : String)

/-- A store in the middle of a run: its state, the statements it was sent, and what was told to the host,
    both in their order. -/
structure Exchange (σ : Type) where
  state : σ
  sent : List Sent := []
  events : List Event := []

/-- Work that talks to a store and can fail. -/
abbrev Run (σ : Type) := ExceptT Error (StateM (Exchange σ))

namespace Run

variable {σ α : Type}

/-- What needs no store, in the middle of a run. -/
def liftError (x : Except Error α) : Run σ α := fun e => (x, e)

instance : MonadLift (Except Error) (Run σ) := ⟨liftError⟩

/-- A query is sent; it is noted as sent whether the store can answer it or not. -/
def fetch (store : Store σ) (statement : Bound) (directives : Directives) : Run σ RowSet := fun e =>
  let (answer, state) := store.fetch statement directives e.state
  (answer, { e with state, sent := e.sent ++ [⟨.fetch, statement, directives⟩] })

/-- A change is sent, and noted in the same way. -/
def execute (store : Store σ) (statement : Bound) (directives : Directives) : Run σ Nat := fun e =>
  let (answer, state) := store.execute statement directives e.state
  (answer, { e with state, sent := e.sent ++ [⟨.execute, statement, directives⟩] })

/-- The host is told something. -/
def tell (event : Event) : Run σ Unit := fun e =>
  (.ok (), { e with events := e.events ++ [event] })

end Run

/-! ### Scripted stores -/

/-- An answer that is known beforehand. -/
inductive Reply where
  | rows (rows : RowSet)
  | affected (rows : Nat)
  | failure (failure : StoreFailure)

namespace Reply

/-- A reply as the answer to a query. A script that is at its end answers with no rows. -/
def toRows : Option Reply → Except Error RowSet
  | some (.rows set) => .ok set
  | some (.failure f) => .error (.store f)
  | _ => .ok .empty

/-- A reply as the answer to a change. A script that is at its end has nothing changed. -/
def toAffected : Option Reply → Except Error Nat
  | some (.affected n) => .ok n
  | some (.failure f) => .error (.store f)
  | _ => .ok 0

end Reply

/-- Hands out replies one by one. A reply of the wrong kind counts as an empty answer, and so does
    a missing one. -/
def Store.scripted : Store (List Reply) where
  fetch _ _ replies := (Reply.toRows replies.head?, replies.tail)
  execute _ _ replies := (Reply.toAffected replies.head?, replies.tail)

end EntityQuery
