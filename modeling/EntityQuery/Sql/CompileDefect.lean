import EntityQuery.Query.Predicate
import EntityQuery.Schema.Resolution

namespace EntityQuery

/-!
# Defects of queries

Why no statement can be written for a query.
-/

/-- Why no statement can be made of a query; each names the path, the field or the view that is at fault. -/
inductive CompileDefect where
  | badPath (defect : PathDefect)
  | unknownEntity (entity : String)
  | noIdentifier (entity : String)
  | notJoinable (path : Path)
  | notJoined (path : Path)
  | noColumn (path : Path)
  | notSelectable (path : Path)
  | orderByAssociation (path : Path)
  | dynamicTarget
  | noField (entity field view : String)
  | noToOne (entity association view : String)
  /-- A view nested in a nested one. -/
  | tooDeep (association accessor view : String)
  | noOperand (path : Path) (operator : Operator)
  | bulkCrosses (path : Path)
  | noAssignments
  | noCountSql
  | noResultEntity
  | nativeOrder (path : Path)
deriving DecidableEq, Repr

/-- What is said of each. -/
def CompileDefect.message : CompileDefect → String
  | .badPath defect => defect.message
  | .unknownEntity entity => s!"unknown entity '{entity}'"
  | .noIdentifier entity => s!"entity '{entity}' declares no identifier"
  | .notJoinable path => s!"'{path.text}' is not a joinable to-one association"
  | .notJoined path => s!"no join planned for '{path.text}'"
  | .noColumn path => s!"'{path.text}' has no column of its own"
  | .notSelectable path => s!"'{path.text}' is an association, not a selectable value"
  | .orderByAssociation path => s!"cannot sort by association '{path.text}'"
  | .dynamicTarget => "dynamic projection must be resolved before compiling"
  | .noField entity field view => s!"{entity} has no field '{field}' for {view}"
  | .noToOne entity association view =>
    s!"'{association}' on {view} is not a to-one association of {entity}"
  | .tooDeep association accessor view =>
    s!"nested accessor '{association}.{accessor}' on {view} goes deeper than one association"
  | .noOperand path operator => s!"'{path.text} {operator.sql}' has no operand"
  | .bulkCrosses path => s!"bulk statements cannot traverse associations ('{path.text}')"
  | .noAssignments => "update assigns nothing"
  | .noCountSql => "a paged native query needs an explicit count query"
  | .noResultEntity => "entity results of a native query need a declared entity"
  | .nativeOrder path => s!"cannot sort native results by '{path.text}'"

/-- A path that cannot be followed is a defect of the query that names it. -/
instance : MonadLift (Except PathDefect) (Except CompileDefect) := ⟨Except.mapError .badPath⟩

/-- The identifier's column, which every registered entity has. -/
def Entity.idColumn (e : Entity) : Except CompileDefect String :=
  match e.idField? with
  | some field => .ok field.column
  | none => .error (.noIdentifier e.name)

end EntityQuery
