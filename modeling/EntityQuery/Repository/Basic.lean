import EntityQuery.Repository.Arguments
import EntityQuery.Repository.Definition

namespace EntityQuery

/-!
# Repositories

A repository holds the prepared methods of an entity, the sizes of its pages, and the unit of work
in whose name its statements are sent.
-/

/-- What a repository is built from: its entity by name, and its methods as they were declared. -/
structure RepositoryDeclaration where
  entity : String
  methods : List MethodDeclaration := []
  paging : PagingSettings := {}
  unit : UnitOfWork

/-- A repository whose methods are prepared, each under its name. -/
structure Repository where
  schema : Schema
  entity : Entity
  paging : PagingSettings
  unit : UnitOfWork
  definitions : List (String × Definition)

namespace Repository

/-- A further method; its name has to be new. -/
def addMethod (schema : Schema) (entity : Entity) (definitions : List (String × Definition))
    (m : MethodDeclaration) : Except Error (List (String × Definition)) :=
  Defect.within m.name do
    if (definitions.lookup m.name).isSome then throw .declaredTwice
    return definitions ++ [(m.name, ← m.prepare schema entity)]

/-- The repository of a declaration: one method that cannot be prepared fails all of it. -/
def build (schema : Schema) (d : RepositoryDeclaration) : Except Error Repository :=
  match schema.entity? d.entity with
  | none => .error (.definition d.entity (.unregistered d.entity))
  | some entity => do
    return ⟨schema, entity, d.paging, d.unit, ← d.methods.foldlM (addMethod schema entity) []⟩

/-- The names of all methods in alphabetical order. -/
def methodNames (repository : Repository) : List String :=
  (repository.definitions.map (·.1)).mergeSort fun a b => decide (a ≤ b)

/-- The definition of a method that is called for a shape. -/
def definition (repository : Repository) (name : String) (shape : Shape) : Except Error Definition :=
  match repository.definitions.lookup name with
  | none => .error (.definition name .noMethod)
  | some d =>
    if d.shape = shape then .ok d else .error (.definition name (.otherShape d.shape shape))

/-- The query with further directives behind its own order. -/
def extendOrder (schema : Schema) (q : Query) (order : SortOrder) : Except Defect Query := do
  order.forM fun directive => do
    let _ ← (schema.resolve q.entity directive.path : Except PathDefect _)
  return { q with order := q.order ++ order }

/-- The compiled form of a method for one call. It is the prepared one unless the call orders the
    results or has to name the target. -/
def compiledFor (repository : Repository) (name : String) (d : Definition) (args : CallArguments) :
    Except Error Compiled := do
  let order := args.fullOrder
  match d.prepared with
  | .select q compiled count =>
    -- What was prepared is sent as it is only if the call adds nothing to it.
    match compiled, order with
    | some compiled, [] => return compiled
    | _, _ =>
      let target ← (q.target.resolve args.target : Except ReadFault _)
      Defect.within name do
        -- The target of the call takes the place of the dynamic one before anything is compiled.
        let q ← extendOrder repository.schema { q with target } order
        return MethodDeclaration.withCount (← q.compile repository.schema) count
  | .native compiled =>
    let target ← (compiled.plan.target.resolve args.target : Except ReadFault _)
    let content ← Defect.within name (monadLift (compiled.orderNative order))
    return { compiled with content, plan := { compiled.plan with target } }
  | .bulk _ _ _ => throw (.definition name .bulkSelects)

/-- The page of a call: the first one of the default size if it names none, and never more than the
    greatest size. -/
def requestFor (repository : Repository) (args : CallArguments) : Except Error PageRequest := do
  let request ← match args.page with
    | some request => pure request
    | none => PageRequest.of 0 repository.paging.defaultSize
  -- The default size is clamped too: it may be greater than the greatest.
  return request.clamped repository.paging.greatestSize

end Repository

end EntityQuery
