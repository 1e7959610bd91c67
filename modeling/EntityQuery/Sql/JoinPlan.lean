import EntityQuery.Query.Basic
import EntityQuery.Sql.CompileDefect

namespace EntityQuery

/-!
# Join plans

The tables of a select are the root and one table for each association path that is needed. A plan
grows: a path is joined once, after the paths it begins with, and a later need for it only adds to
what the join is for. An inner join drops rows; one that the caller did not write gives way as soon
as a left join is needed on its path.
-/

/-- A column of one of the tables of a select; the root is table 0. -/
structure Column where
  table : Nat
  name : String
deriving DecidableEq, Repr

/-- The name of a table inside a statement. -/
def tableAlias (table : Nat) : String := "t" ++ toString table

/-- A column as it is written, behind the alias of its table. -/
def Column.text (c : Column) : String := tableAlias c.table ++ "." ++ c.name

/-- A joined table: its own key equals the foreign key in the parent table. -/
structure Join where
  path : Path
  table : Nat
  parent : Nat
  foreignKey : String
  target : Entity
  targetKey : String
  kind : JoinKind
  /-- The association is loaded together with the record. -/
  fetch : Bool
  /-- The caller wrote the join. -/
  explicit : Bool
  /-- The join decides which rows there are, so counting needs it too. -/
  filtering : Bool
deriving DecidableEq, Repr

/-- What a join is needed for. -/
structure JoinNeed where
  kind : JoinKind
  fetch : Bool := false
  explicit : Bool := false
  filtering : Bool := false
deriving DecidableEq, Repr

namespace JoinNeed

/-- A join that only serves to read columns. -/
def reading : JoinNeed where
  kind := .left

/-- A join that loads an association. -/
def fetching : JoinNeed where
  kind := .left
  fetch := true

/-- A join that the predicate needs. -/
def testing (kind : JoinKind) : JoinNeed where
  kind := kind
  filtering := true

/-- A join as the caller wrote it. -/
def requested (request : JoinRequest) : JoinNeed where
  kind := request.kind
  fetch := request.fetch
  explicit := true
  filtering := true

/-- What the paths on the way to a join are needed for. -/
def onTheWay (need : JoinNeed) : JoinNeed := { need with fetch := false, explicit := false }

end JoinNeed

/-- A join that serves a further need. -/
def Join.meet (join : Join) (need : JoinNeed) : Join :=
  { join with
    kind := if need.kind = .left ∧ join.kind = .inner ∧ join.explicit = false then .left else join.kind
    fetch := join.fetch || need.fetch
    filtering := join.filtering || need.filtering }

/-- The text of a join; the names are those of the tables. -/
def Join.text (join : Join) : String :=
  (match join.kind with
    | .inner => " JOIN "
    | .left => " LEFT JOIN ")
  ++ join.target.table ++ " " ++ tableAlias join.table
  ++ " ON " ++ (Column.mk join.table join.targetKey).text
  ++ " = " ++ (Column.mk join.parent join.foreignKey).text

/-- The tables that a statement reads besides the root's: one join for each path that is asked for, in the
    order of the first requests, so that the join behind a path comes after the one it hangs on. -/
structure JoinPlan where
  joins : List Join := []
deriving DecidableEq, Repr

namespace JoinPlan

/-- The join of a path, where one has been planned. -/
def find? (plan : JoinPlan) (path : Path) : Option Join := plan.joins.find? (·.path == path)

/-- The table of a path: the root for the empty one. -/
def table (plan : JoinPlan) (path : Path) : Except CompileDefect Nat :=
  if path.segments.isEmpty then .ok 0
  else
    match plan.find? path with
    | some join => .ok join.table
    | none => .error (.notJoined path)

/-- A further join on a path whose parent is in the plan. -/
def add (schema : Schema) (root : Entity) (plan : JoinPlan) (need : JoinNeed) (path : Path) :
    Except CompileDefect JoinPlan := do
  let r ← schema.resolve root path
  match r.association? with
  | none => throw (.notJoinable path)
  | some a =>
    match a.joinColumn? with
    | none => throw (.notJoinable path)
    | some foreignKey =>
      match schema.entity? a.target with
      | none => throw (.unknownEntity a.target)
      | some target =>
        let targetKey ← target.idColumn
        let parent ← plan.table path.parent
        let join : Join :=
          { path, table := plan.joins.length + 1, parent, foreignKey, target, targetKey,
            kind := need.kind, fetch := need.fetch, explicit := need.explicit,
            filtering := need.filtering }
        return ⟨plan.joins ++ [join]⟩

/-- Serves a need on the path whose segments are given from the last to the first. -/
def ensureReversed (schema : Schema) (root : Entity) (plan : JoinPlan) (need : JoinNeed) :
    List String → Except CompileDefect JoinPlan
  | [] => plan.add schema root need ⟨[]⟩
  | segment :: before => do
    let path : Path := ⟨(segment :: before).reverse⟩
    if plan.joins.any (·.path == path) then
      return ⟨plan.joins.map fun join => if join.path == path then join.meet need else join⟩
    else
      let plan ←
        if before.isEmpty then pure plan else ensureReversed schema root plan need.onTheWay before
      plan.add schema root need path

/-- Serves a need on a path, joining the paths it begins with first. -/
def ensure (schema : Schema) (root : Entity) (plan : JoinPlan) (need : JoinNeed) (path : Path) :
    Except CompileDefect JoinPlan :=
  plan.ensureReversed schema root need path.segments.reverse

/-- The column of a property: of a field its own, of a to-one association the foreign key. Only a
    field tells the type of its values. -/
def column (schema : Schema) (root : Entity) (plan : JoinPlan) (path : Path) :
    Except CompileDefect (Column × Option ScalarType) := do
  let r ← schema.resolve root path
  let table ← plan.table path.parent
  match r.terminal with
  | .field field => return (⟨table, field.column⟩, some field.type)
  | .association a =>
    match a.joinColumn? with
    | some column => return (⟨table, column⟩, none)
    | none => throw (.noColumn path)

/-- The joins of the plan one after the other. -/
def text (plan : JoinPlan) : String := String.join (plan.joins.map Join.text)

/-- The joins that decide which rows there are. -/
def filtering (plan : JoinPlan) : JoinPlan := ⟨plan.joins.filter (·.filtering)⟩

end JoinPlan

end EntityQuery
