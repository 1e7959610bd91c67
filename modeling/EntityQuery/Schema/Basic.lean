import EntityQuery.Schema.Entity

namespace EntityQuery

/-!
# Schemas

A schema is a list of entities that was checked as a whole: every entity has an identifier, names
and tables are used once, and associations point at entities of the schema, the to-many ones at an
association that leads back.
-/

/-- The entities of a schema, in the order of their registration. -/
structure Schema where
  entities : List Entity
deriving DecidableEq, Repr

/-- Why entities do not make up a schema. -/
inductive SchemaDefect where
  | noIdentifier (entity : String)
  | tableTwice (table : String)
  | entityTwice (entity : String)
  | unknownTarget (entity association target : String)
  | noWayBack (entity association target mappedBy : String)
deriving DecidableEq, Repr

/-- The defect in words. -/
def SchemaDefect.message : SchemaDefect → String
  | .noIdentifier entity => s!"entity '{entity}' declares no identifier"
  | .tableTwice table => s!"table '{table}' is mapped twice"
  | .entityTwice entity => s!"entity '{entity}' is registered twice"
  | .unknownTarget entity association target =>
    s!"association '{entity}.{association}' targets unknown entity '{target}'"
  | .noWayBack entity association target mappedBy =>
    s!"association '{entity}.{association}' is mapped by '{target}.{mappedBy}', "
      ++ s!"which is not an owning association back to {entity}"

namespace Schema

/-- The entity with the given name among some entities. -/
def find? (entities : List Entity) (name : String) : Option Entity :=
  entities.find? (·.name == name)

/-- An entity joins those registered before it. -/
def register (kept : List Entity) (e : Entity) : Except SchemaDefect (List Entity) :=
  if e.idName.isEmpty || e.idField?.isNone then .error (.noIdentifier e.name)
  else if kept.any (·.table == e.table) then .error (.tableTwice e.table)
  else if kept.any (·.name == e.name) then .error (.entityTwice e.name)
  else .ok (kept ++ [e])

/-- Whether an association leads back to an entity that declares its other side. -/
def leadsBackTo (entity : Entity) (a : Association) : Bool :=
  a.isToOne && a.target == entity.name

/-- Whether an association of an entity can be kept among the given entities. -/
def checkAssociation (entities : List Entity) (entity : Entity) (a : Association) :
    Except SchemaDefect Unit :=
  match find? entities a.target with
  | none => .error (.unknownTarget entity.name a.name a.target)
  | some target =>
    match a.kind with
    | .toOne _ => .ok ()
    | .toMany mappedBy =>
      if (target.associationNamed? mappedBy).any (leadsBackTo entity) then .ok ()
      else .error (.noWayBack entity.name a.name target.name mappedBy)

/-- The schema of the given entities. First each entity is checked against those before it, then
    all associations in the order of their declaration. -/
def build (entities : List Entity) : Except SchemaDefect Schema := do
  let kept ← entities.foldlM register []
  -- An association may lead to an entity that is registered after its own.
  kept.forM fun entity => entity.associations.forM (checkAssociation kept entity)
  return ⟨kept⟩

/-- The entity with the given name. -/
def entity? (schema : Schema) (name : String) : Option Entity := find? schema.entities name

/-- The entity whose rows are in the given table. -/
def entityForTable? (schema : Schema) (table : String) : Option Entity :=
  schema.entities.find? (·.table == table)

/-- The number of entities. -/
def size (schema : Schema) : Nat := schema.entities.length

/-- Whether there is no entity at all. -/
def isEmpty (schema : Schema) : Bool := schema.entities.isEmpty

end Schema

end EntityQuery
