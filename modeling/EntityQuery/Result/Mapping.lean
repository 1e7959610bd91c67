import EntityQuery.Result.Target
import EntityQuery.Schema.Basic
import EntityQuery.Value.Row

namespace EntityQuery

/-!
# Mapping rows

A mapping plan says how each row of an answer becomes a result. Compiled queries name their columns
after the properties they hold: `name` for a field of the root, `team.name` for one of a fetched
association, and with a marker before the last segment for a foreign key. Statements given as text
name them after the columns of the table.
-/

/-- Stands before the name of an association whose foreign key is selected. -/
def keyMarker : String := "@"

/-- The types of columns by label, each label once. -/
abbrev ColumnTypes := List (String × ScalarType)

/-- Sets the type of a label. -/
def ColumnTypes.set (types : ColumnTypes) (label : String) (type : ScalarType) : ColumnTypes :=
  types.filter (·.1 != label) ++ [(label, type)]

/-- The types of a list in which a later entry replaces an earlier one. -/
def ColumnTypes.ofList (entries : List (String × ScalarType)) : ColumnTypes :=
  entries.foldl (fun types (label, type) => types.set label type) []

/-- How rows become results. -/
structure MappingPlan where
  target : Target
  entity : Option Entity := none
  /-- The associations of the root that are loaded with it. -/
  fetched : List String := []
  types : ColumnTypes := []

namespace Mapping

/-! ### Records -/

/-- The value of a field of the root: under its name or else under its column. -/
def rootField (entity : Entity) (row : Row) (field : Field) : Except ReadFault (String × Value) := do
  -- The name of the field comes before its column, also for text that means the column.
  match row.get? field.name, row.get? field.column with
  | some v, _ | none, some v => return (field.name, ← field.type.coerce v)
  | none, none => throw (.noFieldColumn field.name entity.name)

/-- The value of a field of a fetched association, under both names. -/
def fetchedField (association : String) (entity : Entity) (row : Row) (field : Field) :
    Except ReadFault (String × Value) := do
  let label := association ++ "." ++ field.name
  match row.get? label with
  | some v => return (field.name, ← field.type.coerce v)
  | none => throw (.noFetchedColumn label entity.name)

/-- The link of a foreign key: a null key leads nowhere, and of a key that was not selected nothing
    is known. -/
def linkOfKey (target : String) : Option Value → Link
  | some .null => .loaded none
  | some key => .unresolved target key
  | none => .unresolved target .null

/-- A record without its links. -/
def bareRecord (entity : Entity) (fields : List (String × Value)) : Record :=
  .mk entity.name entity.idName fields []

/-- The record of a fetched association. Its own associations are not loaded. -/
def fetchedRecord (association : String) (entity : Entity) (row : Row) : Except ReadFault Record := do
  let fields ← entity.fields.mapM (fetchedField association entity row)
  let id := (bareRecord entity fields).id
  let link (a : Association) : Link :=
    match a.kind with
    | .toOne _ => linkOfKey a.target (row.get? (association ++ "." ++ keyMarker ++ a.name))
    | .toMany _ => .unresolved a.target id
  return .mk entity.name entity.idName fields (entity.associations.map fun a => (a.name, link a))

/-- The link of a fetched association; nothing is there where the identifier is null. -/
def fetchedLink (schema : Schema) (row : Row) (a : Association) : Except ReadFault Link :=
  match schema.entity? a.target with
  | none => .error (.unknownEntity a.target)
  | some target =>
    -- The identifier is never null in a row, so a null is that of a join without a partner.
    match row.get? (a.name ++ "." ++ target.idName) with
    | none | some .null => .ok (.loaded none)
    | some _ => do return .loaded (some (← fetchedRecord a.name target row))

/-- The link of an association of the root. -/
def rootLink (schema : Schema) (fetched : List String) (row : Row) (id : Value) (a : Association) :
    Except ReadFault (String × Link) :=
  match a.kind with
  | .toMany _ => .ok (a.name, .unresolved a.target id)
  | .toOne column =>
    if fetched.contains a.name then do return (a.name, ← fetchedLink schema row a)
    else
      -- The compiler marks the key; in the rows of native text it stands under its column.
      let key := (row.get? (keyMarker ++ a.name)).or (row.get? column)
      .ok (a.name, linkOfKey a.target key)

/-- The record of a row. -/
def rootRecord (schema : Schema) (fetched : List String) (entity : Entity) (row : Row) :
    Except ReadFault Record := do
  let fields ← entity.fields.mapM (rootField entity row)
  let id := (bareRecord entity fields).id
  let links ← entity.associations.mapM (rootLink schema fetched row id)
  return .mk entity.name entity.idName fields links

/-- The record of a row of the entity of the plan. -/
def planRecord (schema : Schema) (plan : MappingPlan) (row : Row) : Except ReadFault Record :=
  match plan.entity with
  | some entity => rootRecord schema plan.fetched entity row
  | none => .error .noEntity

/-! ### Views and constructors -/

mutual

/-- The view of a row; `before` stands before the names of all columns it reads. -/
def closedView (row : Row) (before : String) : ClosedView → Except ReadFault View
  | .mk name accessors => do return .mk name (← closedEntries row before name accessors)

/-- A nested view is missing where its foreign key was selected and is null. -/
def closedEntries (row : Row) (before view : String) :
    List Accessor → Except ReadFault (List (String × ViewEntry))
  | [] => .ok []
  | .field name :: accessors => do
    let label := before ++ name
    match row.get? label with
    | none => throw (.noViewColumn view label)
    | some v => return (name, .value v) :: (← closedEntries row before view accessors)
  -- A key that was not selected says nothing, and the view is read.
  | .nested name nested :: accessors => do
    match row.get? (before ++ keyMarker ++ name) with
    | some .null => return (name, .nested none) :: (← closedEntries row before view accessors)
    | _ =>
      let inner ← closedView row (before ++ name ++ ".") nested
      return (name, .nested (some inner)) :: (← closedEntries row before view accessors)

end

/-- The view whose entries are computed from a record. -/
def openView (view : OpenView) (r : Record) : Except ReadFault View := do
  return .mk view.name
    (← view.accessors.mapM fun a => do return (a.name, ViewEntry.value (← a.compute r)))

/-- A parameter of a constructor takes exactly one column. -/
def checkParameter (shape : Constructor) (columns : List String) (parameter : String) :
    Except ReadFault Unit :=
  match columns.count parameter with
  | 0 => .error (.noParameterColumn shape.type parameter columns)
  | 1 => .ok ()
  | n => .error (.severalColumns shape.type parameter n)

/-- The arguments of a constructor whose parameters were checked. -/
def constructorArguments (shape : Constructor) (row : Row) : Arguments :=
  ⟨shape.type, shape.parameters.map fun parameter => (parameter, (row.get? parameter).getD .null)⟩

/-- The value of the column named by a path, or of the only column. -/
def scalar (path : Path) (row : Row) : Except ReadFault Value :=
  match row.get? path.text, row.values with
  | some v, _ | none, [v] => .ok v
  | none, _ => .error (.noScalarColumn path.text)

/-! ### Rows -/

/-- The row with the values of typed columns recovered. -/
def coerceRow (types : ColumnTypes) (row : Row) : Except ReadFault Row :=
  if types.isEmpty then .ok row
  else do
    let values ← row.pairs.mapM fun (column, v) =>
      match types.lookup column with
      | some type => type.coerce v
      | none => .ok v
    return ⟨row.columns, values⟩

/-- The result of one row. -/
def mapRow (schema : Schema) (plan : MappingPlan) (row : Row) : Except ReadFault Projected :=
  match plan.target with
  | .entity => do return .record (← planRecord schema plan row)
  | .scalar path => do return .scalar (← scalar path row)
  | .closed view => do return .view (← closedView row "" view)
  | .opened view => do return .view (← openView view (← planRecord schema plan row))
  | .constructor shape => .ok (.arguments (constructorArguments shape row))
  | .dynamic => .error .openTarget

/-- The results of all rows. The parameters of a constructor are checked even when there is no
    row. -/
def mapRows (schema : Schema) (plan : MappingPlan) (rows : RowSet) :
    Except ReadFault (List Projected) := do
  -- Before any row, so that an answer without rows fails like one with rows.
  if let .constructor shape := plan.target then
    shape.parameters.forM (checkParameter shape rows.columns)
  rows.toRows.mapM fun row => do mapRow schema plan (← coerceRow plan.types row)

end Mapping

end EntityQuery
