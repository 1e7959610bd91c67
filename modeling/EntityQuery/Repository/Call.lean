import EntityQuery.Paging.Envelope
import EntityQuery.Repository.Basic
import EntityQuery.Store.Exchange

namespace EntityQuery

/-!
# Calls

A call binds its arguments, sends the statements of a method to the store and maps what comes back.
The owner of the records in memory is told which of them were loaded and which became stale.
-/

/-- What a change did: the number of rows, and the entity whose records in memory are stale, unless
    they were invalidated. -/
structure BulkOutcome where
  affected : Nat
  stale : Option String
deriving DecidableEq, Repr

namespace Repository

variable {σ : Type}

/-! ### Statements -/

/-- Sends a reading statement in the name of the repository. -/
def fetchRows (repository : Repository) (store : Store σ) (statement : Statement) (args : CallArguments)
    (directives : Directives) : Run σ RowSet := do
  let bound ← (statement.bind args.lookup : Except ParameterFault _)
  -- A unit of work that the call names itself comes before that of the repository.
  Run.fetch store bound { directives with unit := directives.unit.or (some repository.unit) }

/-- Maps rows and tells which records were loaded. -/
def mapRows (repository : Repository) (plan : MappingPlan) (rows : RowSet) (directives : Directives) :
    Run σ (List Projected) := do
  let mapped ← (Mapping.mapRows repository.schema plan rows : Except ReadFault _)
  -- Views and values are no records, so nothing is told of them.
  let ids := mapped.filterMap fun
    | .record r => some r.id
    | _ => none
  match plan.entity with
  | some entity => if !ids.isEmpty then Run.tell (.loaded entity.name ids directives.readOnly)
  | none => pure ()
  return mapped

/-- The results of a statement that reads. -/
def fetchResults (repository : Repository) (store : Store σ) (statement : Statement)
    (plan : MappingPlan) (args : CallArguments) (directives : Directives) : Run σ (List Projected) := do
  let rows ← repository.fetchRows store statement args directives
  repository.mapRows plan rows directives

/-- At most one result. -/
def fetchSingle (repository : Repository) (store : Store σ) (name : String) (statement : Statement)
    (plan : MappingPlan) (args : CallArguments) (directives : Directives) :
    Run σ (Option Projected) := do
  match ← repository.fetchResults store statement plan args directives with
  | [] => return none
  | [result] => return some result
  | _ => throw (.ambiguous name)

/-- The number in the first column of the first row. -/
def countOf (name : String) (rows : RowSet) : Except ReadFault Nat :=
  match rows.rows.head?.bind List.head? with
  | none => .error (.noCountRow name)
  | some value =>
    match value.asInteger? with
    | none => .error (.countNotInteger name value)
    | some n => if n < 0 then .error (.negativeCount n) else .ok n.toInt.toNat

/-- The number that a counting statement answers with. -/
def fetchCount (repository : Repository) (store : Store σ) (name : String) (statement : Statement)
    (args : CallArguments) (directives : Directives) : Run σ Nat := do
  let rows ← repository.fetchRows store statement args directives
  let count ← (countOf name rows : Except ReadFault _)
  return count

/-- A page: its rows, and the number of all rows. -/
def fetchPage (repository : Repository) (store : Store σ) (name : String) (compiled : Compiled)
    (args : CallArguments) (request : PageRequest) (directives : Directives) :
    Run σ (Page Projected) := do
  match compiled.count with
  | none => throw (.definition name .noCountStatement)
  | some count =>
    let offset ← (request.offset : Except ParameterFault _)
    let window ← (compiled.content.window (some request.size) offset : Except ParameterFault _)
    let content ← repository.fetchResults store window compiled.plan args directives
    -- The count locks nothing, whatever the content does.
    let total ← repository.fetchCount store name count args {}
    return ⟨content, request, total⟩

/-- A slice: its rows, and one more that only shows whether others follow. -/
def fetchSlice (repository : Repository) (store : Store σ) (compiled : Compiled)
    (args : CallArguments) (request : PageRequest) (directives : Directives) :
    Run σ (Slice Projected) := do
  let offset ← (request.offset : Except ParameterFault _)
  -- One row more than the page holds shows whether any follows, and it is never mapped.
  let limit := min (request.size + 1) (wordLimit - 1)
  let window ← (compiled.content.window (some limit) offset : Except ParameterFault _)
  let rows ← repository.fetchRows store window args directives
  let content ← repository.mapRows compiled.plan (rows.take request.size) directives
  return ⟨content, request, decide (request.size < rows.length)⟩

/-! ### Declared methods -/

variable (repository : Repository) (store : Store σ) (name : String) (args : CallArguments)

/-- The definition of the method and its compiled form for this call. -/
def select (shape : Shape) : Except Error (Definition × Compiled) := do
  let d ← repository.definition name shape
  return (d, ← repository.compiledFor name d args)

/-- The content of a compiled query within its own limit. -/
def limited (compiled : Compiled) : Except ParameterFault Statement :=
  compiled.content.window compiled.limit 0

/-- The results of a method, one by one as the caller expects them. -/
def list (expected : Expected) : Run σ (List Received) := do
  let (d, compiled) ← (repository.select name args .list : Except Error _)
  let window ← (limited compiled : Except ParameterFault _)
  let results ← repository.fetchResults store window compiled.plan args d.directives
  (results.mapM (Received.ofProjected expected) : Except ReadFault _)

/-- At most one result; several are a fault. -/
def one (expected : Expected) : Run σ (Option Received) := do
  let (d, compiled) ← (repository.select name args .single : Except Error _)
  let window ← (limited compiled : Except ParameterFault _)
  let result ← repository.fetchSingle store name window compiled.plan args d.directives
  (result.mapM (Received.ofProjected expected) : Except ReadFault _)

/-- One page of the results. -/
def page (expected : Expected) : Run σ (Page Received) := do
  let d ← (repository.definition name .page : Except Error _)
  let request ← (repository.requestFor args : Except Error _)
  let compiled ← (repository.compiledFor name d args : Except Error _)
  let page ← repository.fetchPage store name compiled args request d.directives
  (page.mapExcept (Received.ofProjected expected) : Except ReadFault _)

/-- One slice of the results. -/
def slice (expected : Expected) : Run σ (Slice Received) := do
  let d ← (repository.definition name .slice : Except Error _)
  let request ← (repository.requestFor args : Except Error _)
  let compiled ← (repository.compiledFor name d args : Except Error _)
  let slice ← repository.fetchSlice store compiled args request d.directives
  (slice.mapExcept (Received.ofProjected expected) : Except ReadFault _)

/-- The number of results. -/
def count : Run σ Nat := do
  let (d, compiled) ← (repository.select name args .count : Except Error _)
  repository.fetchCount store name compiled.content args d.directives

/-- Whether there is any result. -/
def exists? : Run σ Bool := do
  let (d, compiled) ← (repository.select name args .existence : Except Error _)
  let window ← (limited compiled : Except ParameterFault _)
  return !(← repository.fetchRows store window args d.directives).isEmpty

/-- Carries out an update or delete in one statement. -/
def execute : Run σ BulkOutcome := do
  let d ← (repository.definition name .bulk : Except Error _)
  match d.prepared with
  | .bulk statement entity clears =>
    let bound ← (statement.bind args.lookup : Except ParameterFault _)
    let affected ← Run.execute store bound { unit := some repository.unit }
    if clears then
      Run.tell (.invalidated entity)
      return ⟨affected, none⟩
    else return ⟨affected, some entity⟩
  | _ => throw (.definition name .noBulk)

end Repository

end EntityQuery
