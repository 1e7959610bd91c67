import EntityQuery.Value.Stored

namespace EntityQuery

/-!
# Records

A record is one row read as an entity: the values of its fields and the state of its associations.
An association is loaded together with its record or stays unresolved; reading an unresolved one
is a fault and never goes to the store behind the caller's back.
-/

mutual

/-- The state of an association of a record. -/
inductive Link where
  /-- The other side of a to-one association, if there is any. -/
  | loaded (record : Option Record)
  | loadedMany (records : List Record)
  /-- Not read; the key is what is needed to read it. -/
  | unresolved (target : String) (key : Value)

/-- The values of an entity and its associations, in the order of their declaration. -/
inductive Record where
  | mk (entity idName : String) (fields : List (String × Value)) (links : List (String × Link))

end

namespace Link

/-- Whether an association was read, be it to nothing. -/
def isLoaded : Link → Bool
  | .loaded _ | .loadedMany _ => true
  | .unresolved _ _ => false

end Link

namespace Record

/-- The name of the entity. -/
def entity : Record → String
  | .mk entity _ _ _ => entity

/-- The name of the identifier among the fields. -/
def idName : Record → String
  | .mk _ idName _ _ => idName

/-- The fields with their values. -/
def fields : Record → List (String × Value)
  | .mk _ _ fields _ => fields

/-- The associations with their states. -/
def links : Record → List (String × Link)
  | .mk _ _ _ links => links

/-- The value of the first field with the given name. -/
def get? (r : Record) (field : String) : Option Value := r.fields.lookup field

/-- The value of the identifier. -/
def id (r : Record) : Value := (r.get? r.idName).getD .null

/-- The state of an association. -/
def link? (r : Record) (association : String) : Option Link := r.links.lookup association

/-- Whether a record has the association, and has read it. -/
def isLoaded (r : Record) (association : String) : Bool :=
  (r.link? association).any (·.isLoaded)

/-- Reads a to-one association. -/
def association (r : Record) (name : String) : Except ReadFault (Option Record) :=
  match r.link? name with
  | some (.loaded record) => .ok record
  | some (.loadedMany _) => .error (.collection name r.entity)
  | _ => .error (.detached r.entity name)

/-- Reads a to-many association. -/
def collection (r : Record) (name : String) : Except ReadFault (List Record) :=
  match r.link? name with
  | some (.loadedMany records) => .ok records
  | some (.loaded _) => .error (.noCollection name r.entity)
  | _ => .error (.detached r.entity name)

/-- Replaces the first link with the given name, or adds one at the end. -/
def replaceLink (name : String) (link : Link) : List (String × Link) → List (String × Link)
  | [] => [(name, link)]
  | (n, l) :: rest => if n == name then (n, link) :: rest else (n, l) :: replaceLink name link rest

/-- The record with another state of one association. -/
def setLink (r : Record) (name : String) (link : Link) : Record :=
  .mk r.entity r.idName r.fields (replaceLink name link r.links)

end Record

/-! ### Documents -/

/-- Named values as a list of pairs. -/
def namedValues (values : List (String × Value)) : Text.Json :=
  .array (values.map fun (name, value) => .pair name value.toJson)

mutual

/-- The document of a link, which tells what is known of it. -/
def Link.toJson : Link → Text.Json
  | .loaded none => .object [("Loaded", .null)]
  | .loaded (some record) => .object [("Loaded", record.toJson)]
  | .loadedMany records => .object [("LoadedMany", .array (Record.toJsonItems records))]
  | .unresolved target key =>
    .object [("Unresolved", .object [("target", .string target), ("key", key.toJson)])]

/-- The document of a record. -/
def Record.toJson : Record → Text.Json
  | .mk entity idName fields links =>
    .object [("entity", .string entity), ("id", .string idName), ("fields", namedValues fields),
      ("links", .array (Link.toJsonEntries links))]

/-- The documents of records. -/
def Record.toJsonItems : List Record → List Text.Json
  | [] => []
  | record :: records => record.toJson :: Record.toJsonItems records

/-- The documents of links, each with its name. -/
def Link.toJsonEntries : List (String × Link) → List Text.Json
  | [] => []
  | (name, link) :: links => .pair name link.toJson :: Link.toJsonEntries links

end

end EntityQuery
