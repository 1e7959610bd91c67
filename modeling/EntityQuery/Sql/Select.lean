import EntityQuery.Sql.Condition
import EntityQuery.Sql.SelectList

namespace EntityQuery

/-!
# Selects

A query over an entity becomes a select: tables joined to the root, a condition on their columns, a
select list and an order. Its statements are written from it: one that reads the rows, one that
counts them and one that asks whether there is any. The last two leave out the joins that do not
decide which rows there are.
-/

/-- A select over the root table. -/
structure Select where
  root : Entity
  plan : JoinPlan
  list : SelectList
  condition : Option (Condition Column)
  order : List (Column × Direction)
  /-- The identifier, where only distinct rows count. -/
  distinctKey : Option Column

/-- What is needed to run a query and to map its rows. -/
structure Compiled where
  content : Statement
  /-- The number of all rows, for pages only. -/
  count : Option Statement
  plan : MappingPlan
  /-- The limit on the rows of the content. -/
  limit : Option Nat

namespace Select

/-! ### From queries -/

/-- The joins that the caller asks for and those that the predicate needs. A comparison that must
    hold, and cannot hold of a missing value, may drop the rows without a partner. -/
def planJoins (schema : Schema) (q : Query) : Planning Unit := do
  q.joins.forM fun request => Planning.ensure schema q.entity (.requested request) request.path
  let comparisons := (q.predicate.map Predicate.comparisons).getD []
  comparisons.forM fun c => do
    let r ← (schema.resolve q.entity c.path : Except CompileDefect _)
    let kind := if c.required && c.operator.rejectsNull then JoinKind.inner else .left
    match r.joinPath? with
    | some path => Planning.ensure schema q.entity (.testing kind) path
    | none => pure ()

/-- One term of the order, which has to be a field. -/
def orderTerm (schema : Schema) (root : Entity) (directive : SortDirective) :
    Planning (Column × Direction) := do
  let r ← (schema.resolve root directive.path : Except CompileDefect _)
  if !r.isField then throw (.orderByAssociation directive.path)
  Planning.reach schema root r
  let (column, _) ← (← get).column schema root directive.path
  return (column, directive.direction)

/-- The order of a query; without any directive the identifier decides. -/
def orderTerms (schema : Schema) (root : Entity) (order : SortOrder) :
    Planning (List (Column × Direction)) := do
  if order.isEmpty then return [(⟨0, ← (root.idColumn : Except CompileDefect _)⟩, .ascending)]
  else order.mapM (orderTerm schema root)

/-- The condition of a predicate whose joins are planned. -/
def conditionOf (schema : Schema) (root : Entity) (plan : JoinPlan) (p : Predicate) :
    Except CompileDefect (Condition Column) :=
  Condition.ofPredicate (fun path => do return (← plan.column schema root path).1) .noOperand p

/-- The select of a query. -/
def ofQuery (schema : Schema) (q : Query) : Except CompileDefect Select := do
  let ((list, order), plan) ← StateT.run (s := {}) do
    planJoins schema q
    let list ← SelectList.ofQuery schema q
    let order ← orderTerms schema q.entity q.order
    return (list, order)
  let condition ← q.predicate.mapM (conditionOf schema q.entity plan)
  let distinctKey ←
    if q.distinct then do pure (some (⟨0, ← q.entity.idColumn⟩ : Column)) else pure none
  return ⟨q.entity, plan, list, condition, order, distinctKey⟩

/-! ### Statements -/

/-- A statement over the joined tables: what is selected, the joins, the condition, the end. -/
def statement (s : Select) (selected : String) (plan : JoinPlan) (ending : List Fragment) : Statement :=
  .ofFragments
    (.sql ("SELECT " ++ selected ++ " FROM " ++ s.root.table ++ " " ++ tableAlias 0 ++ plan.text)
      :: (Condition.whereFragments Column.text s.condition ++ ending))

/-- The order at the end of the statement: the columns as the plan's aliases name them, each with its
    direction. -/
def orderText (s : Select) : String :=
  " ORDER BY " ++ ", ".intercalate (s.order.map fun (c, d) => c.text ++ " " ++ d.sql)

/-- Reads the rows in order. -/
def content (s : Select) : Statement :=
  s.statement ((if s.distinctKey.isSome then "DISTINCT " else "") ++ s.list.text) s.plan
    [.sql s.orderText]

/-- Counts the rows, or the different roots among them. -/
def count (s : Select) : Statement :=
  let counted := match s.distinctKey with
    | some key => "COUNT(DISTINCT " ++ key.text ++ ")"
    | none => "COUNT(*)"
  s.statement counted s.plan.filtering []

/-- Has a row exactly when there is any. -/
def existence (s : Select) : Statement := s.statement "1 AS \"present\"" s.plan.filtering []

/-- The number of rows that is read at most: a single result needs two to be seen as ambiguous, and
    one row shows that there is any. -/
def limitOf (shape : Shape) (limit : Option Nat) : Option Nat :=
  match shape with
  | .count => none
  | .existence => some 1
  | .single => some (min (limit.getD 2) 2)
  | _ => limit

/-- The statements of a select for a shape. -/
def compiled (s : Select) (q : Query) : Compiled where
  content := match q.shape with
    | .count => s.count
    | .existence => s.existence
    | _ => s.content
  count := if q.shape = .page then some s.count else none
  plan :=
    { target := q.target, entity := some s.root, fetched := s.list.fetched, types := s.list.types }
  limit := limitOf q.shape q.limit

end Select

/-- The statements and the mapping of a query. -/
def Query.compile (schema : Schema) (q : Query) : Except CompileDefect Compiled := do
  return (← Select.ofQuery schema q).compiled q

end EntityQuery
