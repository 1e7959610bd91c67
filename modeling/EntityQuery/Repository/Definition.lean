import EntityQuery.Error.Basic
import EntityQuery.Sql.Bulk
import EntityQuery.Sql.Native

namespace EntityQuery

/-!
# Definitions

A method is declared by its name alone, by a template, or by text for the store. Everything about it
that can be wrong without a call is found when it is prepared.
-/

/-- Where the query of a method comes from. -/
inductive MethodSource where
  | derived
  | template (text : String)
  | native (sql : String)
deriving DecidableEq, Repr

/-- A method as it is declared. Without a shape the query decides what it answers with. -/
structure MethodDeclaration where
  name : String
  source : MethodSource
  shape : Option Shape := none
  target : Target := .entity
  locks : Bool := false
  readOnly : Bool := false
  /-- Associations that are loaded with the entity. -/
  fetched : List String := []
  countQuery : Option String := none
  /-- Records in memory are invalidated after a change. -/
  clears : Bool := false
  /-- The entity of the results of native text, where it is not the repository's own. -/
  entity : Option String := none

/-- What is sent for a method. A select with a dynamic target is compiled with each call. -/
inductive Prepared where
  | select (query : Query) (compiled : Option Compiled) (count : Option Statement)
  | native (compiled : Compiled)
  | bulk (statement : Statement) (entity : String) (clears : Bool)

/-- A method that is ready to be called. -/
structure Definition where
  shape : Shape
  directives : Directives
  prepared : Prepared

namespace MethodDeclaration

/-- The joins that load the associations to be fetched. -/
def fetchJoins (m : MethodDeclaration) : List JoinRequest :=
  m.fetched.map fun name => ⟨.single name, .left, true⟩

/-! ### Selects -/

/-- Puts an explicit statement for the count of a page in the place of the derived one. -/
def withCount (compiled : Compiled) (count : Option Statement) : Compiled :=
  { compiled with count := if compiled.count.isSome then count.or compiled.count else none }

/-- Compiles a select as far as its target is known; the paths of one with a dynamic target are
    checked as if it gave whole records. -/
def prepareSelect (schema : Schema) (q : Query) (count : Option Statement) : Except Defect Prepared := do
  if q.target.isDynamic then
    -- Nothing is kept of this; it is the paths of the query that have to compile.
    let _ ← ({ q with target := .entity } : Query).compile schema
    return .select q none count
  else return .select q (some (withCount (← q.compile schema) count)) count

/-- The shape of a derived query: the declared one, if it fits the subject. -/
def derivedShape (subject : Subject) (declared : Option Shape) : Except Defect Shape :=
  match subject, declared with
  | .find, none => .ok .list
  | .count, none => .ok .count
  | .existence, none => .ok .existence
  | .delete, none => .ok .bulk
  | .count, some .count => .ok .count
  | .existence, some .existence => .ok .existence
  | .delete, some .bulk => .ok .bulk
  | .find, some .single => .ok .single
  | .find, some .list => .ok .list
  | .find, some .page => .ok .page
  | .find, some .slice => .ok .slice
  | subject, some shape => .error (.shapeOfSubject subject shape)

/-- Prepares a method that is described by its name. -/
def prepareDerived (schema : Schema) (root : Entity) (m : MethodDeclaration) :
    Except Defect (Shape × Prepared) := do
  let parsed ← (MethodQuery.parse schema root m.name : Except MethodDefect _)
  let shape ← derivedShape parsed.subject m.shape
  if parsed.limit.isSome && shape.isPaged then throw .limitedPage
  -- What remains of a delete is its predicate: the row limit and the order are refused.
  if shape = .bulk then
    if parsed.limit.isSome || !parsed.order.isEmpty then throw .limitedDelete
    let statement ← (BulkQuery.compile schema ⟨root, .delete, parsed.predicate, parsed.slots⟩
      : Except CompileDefect _)
    return (shape, .bulk statement root.name m.clears)
  else
    let q : Query :=
      { entity := root, shape, predicate := parsed.predicate, joins := m.fetchJoins,
        target := m.target, order := parsed.order, limit := parsed.limit,
        distinct := parsed.distinct, slots := parsed.slots }
    return (shape, ← prepareSelect schema q none)

/-! ### Templates -/

/-- The shape of a select template: only one that counts can, and then has to, answer a count. -/
def templateShape (countOnly : Bool) (declared : Option Shape) : Except Defect Shape :=
  match countOnly, declared with
  | true, none | true, some .count => .ok .count
  | false, none => .ok .list
  | false, some .count => .error (.shapeOfSelect .count)
  | false, some .bulk => .error (.shapeOfSelect .bulk)
  | false, some shape => .ok shape
  | true, some shape => .error (.shapeOfSelect shape)

/-- The select list and the target of a template with the target that was declared for it. A
    declared constructor takes the selected values in written order. -/
def templateTarget (t : SelectTemplate) (declared : Target) : Except Defect (List Selection × Target) :=
  match t.target, declared with
  | .entity, declared => .ok (t.selections, declared)
  | written, .entity => .ok (t.selections, written)
  | _, .constructor shape =>
    if shape.parameters.length ≠ t.selections.length then
      .error (.argumentCount shape.type shape.parameters.length t.selections.length)
    else
      .ok ((t.selections.zip shape.parameters).map fun (s, parameter) => { s with label := parameter },
        .constructor shape)
  | _, .scalar path => .error (.scalarOverList path)
  | _, .opened view => .error (.openViewOverList view.name (view.accessors.map (·.name)))
  | _, declared => .ok (t.selections, declared)

/-- The query of a select template. -/
def templateQuery (t : SelectTemplate) (shape : Shape) (declared : Target) : Except Defect Query := do
  let (selections, target) ← templateTarget t declared
  return {
    entity := t.entity, shape, predicate := t.predicate, joins := t.joins, selections, target,
    order := t.order, distinct := t.distinct, slots := t.slots }

/-- The statement of a template that counts. -/
def countStatement (schema : Schema) (text : String) : Except Defect Statement := do
  match ← (Template.parse schema text : Except TemplateDefect _) with
  | .select t =>
    if t.countOnly then
      return (← (← templateQuery t .count .entity).compile schema).content
    else throw .noCountTemplate
  | .bulk _ => throw .noCountTemplate

/-- Prepares a method that is given by a template. -/
def prepareTemplate (schema : Schema) (m : MethodDeclaration) (text : String) :
    Except Defect (Shape × Prepared) := do
  match ← (Template.parse schema text : Except TemplateDefect _) with
  | .bulk q =>
    if m.shape.any (· ≠ .bulk) then throw .shapeOfBulk
    let statement ← (q.compile schema : Except CompileDefect _)
    return (.bulk, .bulk statement q.entity.name m.clears)
  | .select t =>
    let shape ← templateShape t.countOnly m.shape
    -- The count is prepared first, so its defects are reported before those of the content.
    let count ← m.countQuery.mapM (countStatement schema)
    let q ← templateQuery t shape m.target
    return (shape, ← prepareSelect schema { q with joins := q.joins ++ m.fetchJoins } count)

/-! ### Text for the store -/

/-- Prepares a method that is given by text for the store. -/
def prepareNative (schema : Schema) (root : Entity) (m : MethodDeclaration) (sql : String) :
    Except Defect (Shape × Prepared) := do
  let shape := m.shape.getD .list
  -- A change by text names the entity of the repository, whichever one was declared.
  if shape = .bulk then return (shape, .bulk (Native.statement sql) root.name m.clears)
  else
    let entity ← match m.entity with
      | none => pure root
      | some name =>
        match schema.entity? name with
        | some entity => pure entity
        | none => throw (.unregistered name)
    let compiled ← (NativeQuery.compile ⟨sql, m.countQuery, some entity, m.target, shape⟩
      : Except CompileDefect _)
    return (shape, .native compiled)

/-- Prepares a method of a repository for the given entity. -/
def prepare (schema : Schema) (root : Entity) (m : MethodDeclaration) : Except Defect Definition := do
  let (shape, prepared) ← match m.source with
    | .derived => prepareDerived schema root m
    | .template text => prepareTemplate schema m text
    | .native sql => prepareNative schema root m sql
  return ⟨shape, { locks := m.locks, readOnly := m.readOnly }, prepared⟩

end MethodDeclaration

end EntityQuery
