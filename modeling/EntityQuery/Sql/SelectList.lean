import EntityQuery.Result.Mapping
import EntityQuery.Schema.PropertyMatch
import EntityQuery.Sql.JoinPlan

namespace EntityQuery

/-!
# Select lists

The columns that a select reads for each target. Choosing them may need further joins, so the join
plan is carried along.
-/

/-- Work that can extend the join plan and can find a defect. -/
abbrev Planning := StateT JoinPlan (Except CompileDefect)

namespace Planning

/-- Serves a need on a path. -/
def ensure (schema : Schema) (root : Entity) (need : JoinNeed) (path : Path) : Planning Unit := do
  set (← (← get).ensure schema root need path)

/-- The table that a path leads to is joined for reading. -/
def reach (schema : Schema) (root : Entity) (r : Resolution) : Planning Unit :=
  match r.joinPath? with
  | some path => ensure schema root .reading path
  | none => pure ()

end Planning

/-- A selected column, the label it is read under, and its type where one is known. -/
structure SelectColumn where
  column : Column
  label : String
  type : Option ScalarType := none
deriving DecidableEq, Repr

/-- A column with the label its values are read by. -/
def SelectColumn.text (c : SelectColumn) : String := c.column.text ++ " AS \"" ++ c.label ++ "\""

/-- What a statement reads: the columns, and what is rebuilt from them besides the record itself. -/
structure SelectList where
  columns : List SelectColumn
  /-- The associations of the root that are read with it. -/
  fetched : List String := []

namespace SelectList

/-- The list as it is written behind SELECT. -/
def text (list : SelectList) : String := ", ".intercalate (list.columns.map SelectColumn.text)

/-- The types of the typed columns by label. -/
def types (list : SelectList) : ColumnTypes :=
  .ofList (list.columns.filterMap fun c => c.type.map fun type => (c.label, type))

/-- The columns of all fields of an entity in one table. -/
def fieldColumns (table : Nat) (before : String) (e : Entity) : List SelectColumn :=
  e.fields.map fun f => ⟨⟨table, f.column⟩, before ++ f.name, some f.type⟩

/-- The foreign key of a to-one association. -/
def keyColumn (table : Nat) (before : String) (a : Association) : Option SelectColumn :=
  a.joinColumn?.map fun column => ⟨⟨table, column⟩, before ++ keyMarker ++ a.name, none⟩

/-- The value at the end of a path, which has to be a field. -/
def pathColumn (schema : Schema) (root : Entity) (path : Path) (label : String) :
    Planning SelectColumn := do
  let r ← (schema.resolve root path : Except CompileDefect _)
  if !r.isField then throw (.notSelectable path)
  Planning.reach schema root r
  let (column, type) ← (← get).column schema root path
  return ⟨column, label, type⟩

/-- The columns of one to-one association of the root: all of a fetched one, the foreign key of
    another. A fetched association always comes through a left join. -/
def associationColumns (schema : Schema) (root : Entity) (fetchAll : Bool) (a : Association) :
    Planning SelectList := do
  let path := Path.single a.name
  if fetchAll then Planning.ensure schema root .fetching path
  if ((← get).find? path).any (·.fetch) then
    Planning.ensure schema root .fetching path
    match (← get).find? path with
    | none => throw (.notJoined path)
    | some join =>
      let before := a.name ++ "."
      return ⟨fieldColumns join.table before join.target
        ++ join.target.associations.filterMap (keyColumn join.table before), [a.name]⟩
  else return ⟨(keyColumn 0 "" a).toList, []⟩

/-- The columns of the root and of its to-one associations. -/
def ofEntity (schema : Schema) (root : Entity) (fetchAll : Bool) : Planning SelectList := do
  let lists ← (root.associations.filter (·.isToOne)).mapM (associationColumns schema root fetchAll)
  return ⟨fieldColumns 0 "" root ++ lists.flatMap columns, lists.flatMap fetched⟩

/-- The columns of a list of paths and their labels. -/
def ofSelections (schema : Schema) (root : Entity) (selections : List Selection) :
    Planning SelectList := do
  return ⟨← selections.mapM fun s => pathColumn schema root s.path s.label, []⟩

/-- The columns that an accessor of a closed view reads. -/
def accessorColumns (schema : Schema) (root : Entity) (view : String) :
    Accessor → Planning (List SelectColumn)
  | .field name =>
    match root.fieldNamed? name with
    | some f => return [⟨⟨0, f.column⟩, name, some f.type⟩]
    | none => throw (.noField root.name name view)
  | .nested name nested => do
    match (root.associationNamed? name).bind (keyColumn 0 "") with
    | none => throw (.noToOne root.name name view)
    | some key =>
      let path := Path.single name
      Planning.ensure schema root .reading path
      let inner ← nested.accessors.mapM fun
        | .field field => pathColumn schema root (path.child field) (name ++ "." ++ field)
        | .nested deeper _ => throw (.tooDeep name deeper view)
      return key :: inner

/-- The columns of a closed view. -/
def ofClosedView (schema : Schema) (root : Entity) (view : ClosedView) : Planning SelectList := do
  let columns ← view.accessors.mapM (accessorColumns schema root view.name)
  return ⟨columns.flatten, []⟩

/-- The field that a parameter of a constructor names: as a path, or else by camel-case words that
    are all used. -/
def parameterPath? (schema : Schema) (root : Entity) (parameter : String) : Option Path :=
  let direct := Path.parse parameter
  let endsInField (path : Path) : Bool := (schema.resolve root path).toOption.any (·.isField)
  if endsInField direct then some direct
  else
    let words := Text.words parameter
    match schema.matchProperty root words with
    | some (path, used) => if used == words.length && endsInField path then some path else none
    | none => none

/-- The columns of a constructor. Parameters that name nothing are left to the mapping, and where
    nothing at all is selected the identifier keeps the statement whole. -/
def ofConstructor (schema : Schema) (root : Entity) (shape : Constructor) : Planning SelectList := do
  let named := shape.parameters.filterMap fun parameter =>
    (parameterPath? schema root parameter).map fun path => (path, parameter)
  let columns ← named.mapM fun (path, parameter) => pathColumn schema root path parameter
  if columns.isEmpty then
    return ⟨[⟨⟨0, ← (root.idColumn : Except CompileDefect _)⟩, keyMarker ++ "id", none⟩], []⟩
  else return ⟨columns, []⟩

/-- The columns of a query. An explicit select list takes the place of a narrow target's own. -/
def ofQuery (schema : Schema) (q : Query) : Planning SelectList :=
  match q.target with
  | .entity => ofEntity schema q.entity false
  | .opened _ => ofEntity schema q.entity true
  | .dynamic => throw .dynamicTarget
  | .scalar path =>
    if q.selections.isEmpty then do return ⟨[← pathColumn schema q.entity path path.text], []⟩
    else ofSelections schema q.entity q.selections
  | .closed view =>
    if q.selections.isEmpty then ofClosedView schema q.entity view
    else ofSelections schema q.entity q.selections
  | .constructor shape =>
    if q.selections.isEmpty then ofConstructor schema q.entity shape
    else ofSelections schema q.entity q.selections

end SelectList

end EntityQuery
