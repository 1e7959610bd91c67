import EntityQuery.Error.Defect
import EntityQuery.Result.Record
import EntityQuery.Schema.Entity

namespace EntityQuery

/-!
# Query by example

A probe is a partly filled entity. The rows that it stands for are equal to it in every field that
is filled, not ignored, and not null; if nulls are included, a null stands for null.
-/

/-- An example: the name of its entity and some of its fields. -/
structure Probe where
  entity : String
  values : List (String × Value) := []

/-- A probe with all fields of a record. -/
def Probe.ofRecord (r : Record) : Probe := ⟨r.entity, r.fields⟩

/-- Which fields of a probe count, and whether a null asks for nulls. -/
structure ExampleMatcher where
  ignored : List String := []
  includesNulls : Bool := false
deriving DecidableEq, Repr

namespace ExampleMatcher

/-- What a field of the probe asks for, if it asks for anything. -/
def comparison? (m : ExampleMatcher) (field : String) (value : Value) : Option Predicate :=
  if m.ignored.contains field then none
  else if !value.isNull then some (.comparison (.single field) .equals (.literal value))
  else if m.includesNulls then some (.comparison (.single field) .isNull .none)
  else none

/-- A field of a probe has to be one of the entity, whether it is ignored or not. -/
def checkField (entity : Entity) (field : String) : Except Defect Unit :=
  if (entity.fieldNamed? field).isSome then .ok () else .error (.noProbeField entity.name field)

/-- The conjunction of what the fields of a probe ask for. -/
def predicate (m : ExampleMatcher) (probe : Probe) (entity : Entity) :
    Except Defect (Option Predicate) := do
  if probe.entity ≠ entity.name then throw (.otherProbe probe.entity entity.name)
  probe.values.forM fun (field, _) => checkField entity field
  -- Only now, so that a wrong field is reported even if it asks for nothing.
  return Predicate.all (probe.values.filterMap fun (field, value) => m.comparison? field value)

end ExampleMatcher

end EntityQuery
