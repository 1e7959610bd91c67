import EntityQuery.Query.Predicate
import EntityQuery.Query.Shape
import EntityQuery.Query.SortOrder
import EntityQuery.Result.Target
import EntityQuery.Schema.Entity

namespace EntityQuery

/-!
# Queries

What a caller asks for, before any statement is written: selects over an entity, updates and
deletes of the rows of one entity, and statements given as text.
-/

/-- Whether a join drops the rows that have no partner. -/
inductive JoinKind where
  | inner
  | left
deriving DecidableEq, Repr

/-- A join that the caller asks for, along an association path from the root. A fetching join loads
    the association together with the record. -/
structure JoinRequest where
  path : Path
  kind : JoinKind
  fetch : Bool
deriving DecidableEq, Repr

/-- A column of an explicit select list. -/
structure Selection where
  path : Path
  label : String
deriving DecidableEq, Repr

/-- A select over an entity. -/
structure Query where
  entity : Entity
  shape : Shape
  predicate : Option Predicate := none
  joins : List JoinRequest := []
  selections : List Selection := []
  target : Target := .entity
  order : SortOrder := []
  limit : Option Nat := none
  distinct : Bool := false
  slots : List Slot := []

/-- Whether one of the joins fetches the given path. -/
def Query.fetches (q : Query) (path : Path) : Bool := q.joins.any fun j => j.fetch && j.path == path

/-- The operators of assigned values. -/
inductive ArithmeticOperator where
  | add
  | subtract
  | multiply
  | divide
deriving DecidableEq, Repr

namespace ArithmeticOperator

/-- The sign of an operator. -/
def sql : ArithmeticOperator → String
  | .add => "+"
  | .subtract => "-"
  | .multiply => "*"
  | .divide => "/"

/-- Multiplication and division bind tighter than addition and subtraction. -/
def isProduct : ArithmeticOperator → Bool
  | .multiply | .divide => true
  | .add | .subtract => false

end ArithmeticOperator

/-- The right side of an assignment. -/
inductive ValueExpr where
  | operand (operand : Operand)
  | field (field : Field)
  | binary (operator : ArithmeticOperator) (left right : ValueExpr)

namespace ValueExpr

/-- Every slot, in written order. -/
def slots : ValueExpr → List Slot
  | .operand o => o.slots
  | .field _ => []
  | .binary _ l r => l.slots ++ r.slots

end ValueExpr

/-- A field of a row, and the value that it gets. -/
structure Assignment where
  field : Field
  value : ValueExpr

/-- What happens to a row that matches. -/
inductive Mutation where
  | update (assignments : List Assignment)
  | delete

/-- An update or delete of every row that matches. -/
structure BulkQuery where
  entity : Entity
  mutation : Mutation
  predicate : Option Predicate := none
  slots : List Slot := []

/-- A statement given as text; a page also needs a statement that counts. -/
structure NativeQuery where
  sql : String
  countSql : Option String := none
  entity : Option Entity := none
  target : Target := .entity
  shape : Shape

end EntityQuery
