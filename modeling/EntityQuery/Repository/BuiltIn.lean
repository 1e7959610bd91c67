import EntityQuery.Repository.Call
import EntityQuery.Repository.Probe

namespace EntityQuery

/-!
# Built-in calls

What every repository can do without a declared method: read by identifier, read and count all rows
or those like an example, and load an association that a record was read without.
-/

variable {σ : Type}

/-- Work on a record at hand that talks to a store. What it did to the record before an error stays
    done. -/
abbrev Edit (σ : Type) := ExceptT Error (StateT Record (StateM (Exchange σ)))

namespace Edit

/-- Work that does not touch the record. -/
def ofRun {α : Type} (work : Run σ α) : Edit σ α := fun record e =>
  let (answer, e) := work e
  ((answer, record), e)

instance : MonadLift (Run σ) (Edit σ) := ⟨ofRun⟩

end Edit

namespace Repository

variable (repository : Repository) (store : Store σ)

/-- The compiled form of a built-in query. -/
def builtIn (name : String) (q : Query) : Except Error Compiled :=
  Defect.within name (monadLift (q.compile repository.schema))

/-- Every result has to be a record. -/
def records (results : List Projected) : Except ReadFault (List Record) :=
  results.mapM Projected.toRecord

/-! ### By identifier -/

/-- The query for the row with a given identifier. -/
def byId (entity : Entity) (shape : Shape) : Query :=
  { entity, shape, predicate := some (.comparison (.single entity.idName) .equals (.slot ⟨0, none⟩)),
    slots := [⟨0, none⟩] }

/-- The record of an entity with the given identifier. -/
def load (entity : Entity) (id : Value) : Run σ (Option Record) := do
  let compiled ← (repository.builtIn "findById" (byId entity .single) : Except Error _)
  let window ← (limited compiled : Except ParameterFault _)
  let result ← repository.fetchSingle store "findById" window compiled.plan { positional := [id] } {}
  (result.mapM Projected.toRecord : Except ReadFault _)

/-- The record of the repository's own entity with the given identifier. -/
def findById (id : Value) : Run σ (Option Record) := repository.load store repository.entity id

/-- Whether the entity has a row with the given identifier. -/
def existsById (id : Value) : Run σ Bool := do
  let compiled ← (repository.builtIn "existsById" (byId repository.entity .existence) : Except Error _)
  let window ← (limited compiled : Except ParameterFault _)
  return !(← repository.fetchRows store window { positional := [id] } {}).isEmpty

/-! ### All rows -/

/-- The query for all rows of the entity. -/
def all (name : String) (shape : Shape) (order : SortOrder) : Except Error Compiled :=
  Defect.within name do
    let q ← extendOrder repository.schema { entity := repository.entity, shape } order
    q.compile repository.schema

/-- The records of all rows, in the given order. -/
def findAll (order : SortOrder) : Run σ (List Record) := do
  let compiled ← (repository.all "findAll" .list order : Except Error _)
  let results ← repository.fetchResults store compiled.content compiled.plan {} {}
  (records results : Except ReadFault _)

/-- One page of them. The request carries the order. -/
def findAllPage (request : PageRequest) : Run σ (Page Record) := do
  let request := request.clamped repository.paging.greatestSize
  let compiled ← (repository.all "findAll" .page request.order : Except Error _)
  let page ← repository.fetchPage store "findAll" compiled {} request {}
  (page.mapExcept Projected.toRecord : Except ReadFault _)

/-- One slice of them. -/
def findAllSlice (request : PageRequest) : Run σ (Slice Record) := do
  let request := request.clamped repository.paging.greatestSize
  let compiled ← (repository.all "findAll" .slice request.order : Except Error _)
  let slice ← repository.fetchSlice store compiled {} request {}
  (slice.mapExcept Projected.toRecord : Except ReadFault _)

/-- The number of all rows. -/
def countAll : Run σ Nat := do
  let compiled ← (repository.all "count" .count [] : Except Error _)
  repository.fetchCount store "count" compiled.content {} {}

/-! ### By example -/

/-- The query for the rows like an example. -/
def example? (name : String) (shape : Shape) (probe : Probe) (matcher : ExampleMatcher) :
    Except Error Compiled := do
  let predicate ← Defect.within "example" (matcher.predicate probe repository.entity)
  repository.builtIn name { entity := repository.entity, shape, predicate }

/-- The records like an example. -/
def findByExample (probe : Probe) (matcher : ExampleMatcher) : Run σ (List Record) := do
  let compiled ← (repository.example? "findAllByExample" .list probe matcher : Except Error _)
  let results ← repository.fetchResults store compiled.content compiled.plan {} {}
  (records results : Except ReadFault _)

/-- The number of the rows like an example. -/
def countByExample (probe : Probe) (matcher : ExampleMatcher) : Run σ Nat := do
  let compiled ← (repository.example? "countByExample" .count probe matcher : Except Error _)
  repository.fetchCount store "countByExample" compiled.content {} {}

/-! ### Associations -/

/-- The records on the other side of a to-many association, found by the key of this side. -/
def loadMany (name mappedBy : String) (target : Entity) (key : Value) : Run σ (List Record) := do
  let q : Query :=
    { entity := target, shape := .list,
      predicate := some (.comparison (.single mappedBy) .equals (.literal key)) }
  let compiled ← (repository.builtIn name q : Except Error _)
  let results ← repository.fetchResults store compiled.content compiled.plan {} {}
  (records results : Except ReadFault _)

/-- The link of an association that was not loaded yet. A null key leads nowhere. -/
def loadLink (a : Association) (key : Value) : Run σ Link := do
  match repository.schema.entity? a.target with
  | none => throw (.reading (.unknownEntity a.target))
  | some target =>
    match a.kind with
    | .toOne _ =>
      if key.isNull then return .loaded none else return .loaded (← repository.load store target key)
    | .toMany mappedBy => return .loadedMany (← repository.loadMany store a.name mappedBy target key)

/-- Loads an association of the record at hand; one that is loaded already stays as it is. -/
def resolveInPlace (association : String) : Edit σ Unit := do
  let record ← getThe Record
  match repository.schema.entity? record.entity with
  | none => throw (.reading (.unknownEntity record.entity))
  | some owner =>
    match owner.associationNamed? association with
    | none => throw (.reading (.noAssociation owner.name association))
    | some a =>
      -- Anything else is loaded already, and nothing is sent for it.
      if let some (.unresolved _ key) := record.link? association then
        let link ← repository.loadLink store a key
        -- Not before the link is there: a failure leaves the record as it is.
        modifyThe Record (·.setLink association link)

/-- The record with an association loaded. -/
def resolve (record : Record) (association : String) : Run σ Record := fun e =>
  let ((answer, record), e) := repository.resolveInPlace store association record e
  (answer.map fun _ => record, e)

end Repository

end EntityQuery
