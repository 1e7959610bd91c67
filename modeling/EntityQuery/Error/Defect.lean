import EntityQuery.Method.Criteria
import EntityQuery.Schema.Basic
import EntityQuery.Sql.CompileDefect
import EntityQuery.Template.Meaning

namespace EntityQuery

/-!
# Defects of definitions

Everything that can be wrong with what a caller defined or asked for, apart from argument values.
-/

/-- Why a definition makes no sense, or does not fit the way in which it is called. -/
inductive Defect where
  | schema (defect : SchemaDefect)
  | badPath (defect : PathDefect)
  | method (defect : MethodDefect)
  | template (defect : TemplateDefect)
  | compile (defect : CompileDefect)
  | emptyPage
  | otherProbe (probe entity : String)
  | noProbeField (entity field : String)
  | unregistered (entity : String)
  | declaredTwice
  | shapeOfSubject (subject : Subject) (shape : Shape)
  | limitedPage
  | limitedDelete
  | shapeOfBulk
  | shapeOfSelect (shape : Shape)
  | argumentCount (type : String) (parameters selections : Nat)
  | scalarOverList (path : Path)
  | openViewOverList (view : String) (accessors : List String)
  | noCountTemplate
  | noMethod
  | otherShape (declared called : Shape)
  | bulkSelects
  | noBulk
  | noCountStatement
deriving DecidableEq, Repr

/-- The defect in words. -/
def Defect.message : Defect → String
  | .schema defect => defect.message
  | .badPath defect => defect.message
  | .method defect => defect.message
  | .template defect => defect.message
  | .compile defect => defect.message
  | .emptyPage => "page size must be greater than zero"
  | .otherProbe probe entity => s!"probe of {probe} used on {entity}"
  | .noProbeField entity field => s!"{entity} has no field '{field}'"
  | .unregistered entity => s!"entity '{entity}' is not registered"
  | .declaredTwice => "declared twice"
  | .shapeOfSubject subject shape => s!"a {subject.name} query cannot return {shape.name}"
  | .limitedPage => "row limits cannot be combined with paging"
  | .limitedDelete => "delete queries take neither a row limit nor an order"
  | .shapeOfBulk => "update and delete templates return an affected row count"
  | .shapeOfSelect shape => s!"this select cannot return {shape.name}"
  | .argumentCount type parameters selections =>
    s!"{type} takes {parameters} arguments but the template selects {selections}"
  | .scalarOverList path =>
    "ScalarList(" ++ path.inMessage ++ ") cannot be applied to an explicit select list"
  | .openViewOverList view accessors =>
    "OpenInterface(OpenShape \x7b name: " ++ Text.quoted view ++ ", accessors: ["
      ++ ", ".intercalate (accessors.map fun a => "OpenAccessor(" ++ a ++ ")")
      ++ "] \x7d) cannot be applied to an explicit select list"
  | .noCountTemplate => "count query must be a 'select count(...)' template"
  | .noMethod => "no such query method"
  | .otherShape declared called => s!"declared as {declared.name} but called as {called.name}"
  | .bulkSelects => "bulk statements select nothing"
  | .noBulk => "not a bulk statement"
  | .noCountStatement => "paged query has no count query"

instance : MonadLift (Except SchemaDefect) (Except Defect) := ⟨Except.mapError .schema⟩

instance : MonadLift (Except PathDefect) (Except Defect) := ⟨Except.mapError .badPath⟩

instance : MonadLift (Except MethodDefect) (Except Defect) := ⟨Except.mapError .method⟩

instance : MonadLift (Except TemplateDefect) (Except Defect) := ⟨Except.mapError .template⟩

instance : MonadLift (Except CompileDefect) (Except Defect) := ⟨Except.mapError .compile⟩

end EntityQuery
