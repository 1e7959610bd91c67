import EntityQuery.Text.CamelWords
import EntityQuery.Value.Basic

namespace EntityQuery

/-!
# Entities

An entity describes the rows of one table: an integer identifier, further fields, each in a column
of its own, and associations to other entities. The declaring side of a to-one association owns it
and holds the foreign key; a to-many association is the other side of one that is owned elsewhere.
-/

/-- A field and the column that holds it. -/
structure Field where
  name : String
  column : String
  type : ScalarType
  nullable : Bool
deriving DecidableEq, Repr

/-- Where the key of an association is kept. -/
inductive AssociationKind where
  /-- In a column of the declaring table. -/
  | toOne (joinColumn : String)
  /-- In the table of the target, by the named to-one association declared there. -/
  | toMany (mappedBy : String)
deriving DecidableEq, Repr

/-- An association, the name of the entity it leads to, and where its key is kept. -/
structure Association where
  name : String
  target : String
  kind : AssociationKind
deriving DecidableEq, Repr

namespace Association

/-- The foreign key column of a to-one association. -/
def joinColumn? (a : Association) : Option String :=
  match a.kind with
  | .toOne column => some column
  | .toMany _ => none

/-- The association on the other side of a to-many one. -/
def mappedBy? (a : Association) : Option String :=
  match a.kind with
  | .toOne _ => none
  | .toMany name => some name

/-- Whether the key is in the table of the declaring entity. -/
def isToOne (a : Association) : Bool := a.joinColumn?.isSome

end Association

/-- An entity as it is declared. Nothing is checked before it is registered. -/
structure Entity where
  name : String
  table : String
  /-- The name of the identifier; empty as long as none is declared. -/
  idName : String := ""
  fields : List Field := []
  associations : List Association := []
deriving DecidableEq, Repr

namespace Entity

/-! ### Declarations -/

/-- One more field, behind the others. -/
def declare (e : Entity) (field : Field) : Entity := { e with fields := e.fields ++ [field] }

/-- The identifier is an integer field that is never null. -/
def withId (e : Entity) (name column : String) : Entity :=
  { e with idName := name }.declare ⟨name, column, .integer, false⟩

/-- A field in a column of the given name. -/
def withFieldIn (e : Entity) (name column : String) (type : ScalarType) (nullable : Bool) : Entity :=
  e.declare ⟨name, column, type, nullable⟩

/-- A field whose column is the snake-case form of its name. -/
def withField (e : Entity) (name : String) (type : ScalarType) (nullable : Bool) : Entity :=
  e.withFieldIn name (Text.snakeCase name) type nullable

/-- A to-one association, whose key is in the given column. -/
def belongsTo (e : Entity) (name target joinColumn : String) : Entity :=
  { e with associations := e.associations ++ [⟨name, target, .toOne joinColumn⟩] }

/-- A to-many association, which the target declares the other side of. -/
def hasMany (e : Entity) (name target mappedBy : String) : Entity :=
  { e with associations := e.associations ++ [⟨name, target, .toMany mappedBy⟩] }

/-! ### Lookups -/

/-- The first field with the given name. -/
def fieldNamed? (e : Entity) (name : String) : Option Field := e.fields.find? (·.name == name)

/-- The first association with the given name. -/
def associationNamed? (e : Entity) (name : String) : Option Association :=
  e.associations.find? (·.name == name)

/-- The field that the identifier names. -/
def idField? (e : Entity) : Option Field := e.fieldNamed? e.idName

/-- The to-one association whose key is in the given column. -/
def associationForColumn? (e : Entity) (column : String) : Option Association :=
  e.associations.find? (·.joinColumn? == some column)

/-- The pair is added, and every earlier pair that shares a side with it is given up. -/
def pairUp (pairs : List (String × String)) (pair : String × String) : List (String × String) :=
  pairs.filter (fun p => p.1 != pair.1 && p.2 != pair.2) ++ [pair]

/-- Names of fields and their columns, each at most once: the last declaration wins. -/
def columnPairs (e : Entity) : List (String × String) :=
  (e.fields.map fun f => (f.name, f.column)).foldl pairUp []

/-- The column that belongs to the name of a field. -/
def columnOf? (e : Entity) (field : String) : Option String :=
  (e.columnPairs.find? (·.1 == field)).map (·.2)

/-- The field whose name belongs to the given column. -/
def fieldForColumn? (e : Entity) (column : String) : Option Field :=
  (e.columnPairs.find? (·.2 == column)).bind fun pair => e.fieldNamed? pair.1

end Entity

end EntityQuery
