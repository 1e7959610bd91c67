import EntityQuery.Query.Basic
import EntityQuery.Sql.CompileDefect
import EntityQuery.Sql.Condition

namespace EntityQuery

/-!
# Updates and deletes

A statement that changes all matching rows of one table knows no other table, so its columns carry
no name of a table and no path may cross an association.
-/

namespace BulkQuery

/-- The column of a property of the entity itself. -/
def column (schema : Schema) (root : Entity) (path : Path) : Except CompileDefect String := do
  let r ← schema.resolve root path
  if r.crossesAssociation then throw (.bulkCrosses path)
  match r.terminal with
  | .field field => return field.column
  | .association a =>
    match a.joinColumn? with
    | some column => return column
    | none => throw (.noColumn path)

/-- The fragments of a value; every operation stands in brackets. -/
def valueFragments : ValueExpr → List Fragment
  | .operand (.slot s) => [.slot s]
  | .operand (.literal v) => [.value v]
  | .operand .none => [.sql "NULL"]
  | .field f => [.sql f.column]
  | .binary operator l r =>
    .sql "(" :: (valueFragments l ++ .sql (" " ++ operator.sql ++ " ") :: (valueFragments r ++ [.sql ")"]))

/-- One assignment of an update. -/
def assignmentFragments (a : Assignment) : List Fragment :=
  .sql (a.field.column ++ " = ") :: valueFragments a.value

/-- What is done to the rows. -/
def mutationFragments (table : String) : Mutation → Except CompileDefect (List Fragment)
  | .delete => .ok [.sql ("DELETE FROM " ++ table)]
  | .update [] => .error .noAssignments
  | .update (a :: more) =>
    .ok (.sql ("UPDATE " ++ table ++ " SET ") :: (assignmentFragments a
      ++ more.flatMap fun a => .sql ", " :: assignmentFragments a))

/-- The condition of a predicate over the columns of the table. -/
def conditionOf (schema : Schema) (root : Entity) (p : Predicate) :
    Except CompileDefect (Condition String) :=
  Condition.ofPredicate (column schema root) .noOperand p

/-- The statement of an update or delete. -/
def compile (schema : Schema) (q : BulkQuery) : Except CompileDefect Statement := do
  let mutation ← mutationFragments q.entity.table q.mutation
  let condition ← q.predicate.mapM (conditionOf schema q.entity)
  return .ofFragments (mutation ++ Condition.whereFragments id condition)

end BulkQuery

end EntityQuery
