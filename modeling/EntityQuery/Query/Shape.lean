namespace EntityQuery

/-!
# Shapes and directives

The shape says what a query answers with, the directives accompany its statements to the store.
-/

/-- What a query answers with. -/
inductive Shape where
  /-- At most one result; several are a fault. -/
  | single
  | list
  /-- A part of the results with the total number of them. -/
  | page
  /-- A part of the results that only knows whether more follow. -/
  | slice
  | count
  | existence
  /-- An update or delete, which answers with the number of rows it changed. -/
  | bulk
deriving DecidableEq, Repr

namespace Shape

/-- Whether a request says which part of the results is read. -/
def isPaged : Shape → Bool
  | .page | .slice => true
  | _ => false

/-- The name of a shape in messages. -/
def name : Shape → String
  | .single => "Single"
  | .list => "List"
  | .page => "Page"
  | .slice => "Slice"
  | .count => "Count"
  | .existence => "Exists"
  | .bulk => "Bulk"

end Shape

/-- What a method does with the rows that match. -/
inductive Subject where
  | find
  | count
  | existence
  | delete
deriving DecidableEq, Repr

/-- The name of a subject in messages. -/
def Subject.name : Subject → String
  | .find => "Find"
  | .count => "Count"
  | .existence => "Exists"
  | .delete => "Delete"

/-- A unit of work: the owner of statements, and of the transaction that a locking read opens. -/
abbrev UnitOfWork := Nat

/-- What accompanies a statement: whether it locks what it reads, whether its results are only
    read, and for whom it is issued. -/
structure Directives where
  locks : Bool := false
  readOnly : Bool := false
  unit : Option UnitOfWork := none
deriving DecidableEq, Repr

end EntityQuery
