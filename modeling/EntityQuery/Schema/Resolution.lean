import EntityQuery.Schema.Basic
import EntityQuery.Schema.Path

namespace EntityQuery

/-!
# Resolution of paths

A path is followed from an entity through to-one associations to a property, which is a field or an
association. A name that is both counts as a field.
-/

/-- What a path ends in. -/
inductive Terminal where
  | field (field : Field)
  | association (association : Association)
deriving DecidableEq, Repr

/-- A path that was followed: the associations crossed and the entity that declares the end. -/
structure Resolution where
  path : Path
  hops : List Association
  owner : Entity
  terminal : Terminal
deriving DecidableEq, Repr

/-- Why a path cannot be followed. -/
inductive PathDefect where
  | emptySegment (path : Path)
  | fieldCrossed (segment owner : String) (path : Path)
  | noProperty (segment owner : String) (path : Path)
  | collectionCrossed (owner association : String) (path : Path)
  | unknownEntity (entity : String)
  | noEnd (path : Path)
deriving DecidableEq, Repr

/-- The defect in words. -/
def PathDefect.message : PathDefect → String
  | .emptySegment path => s!"empty path segment in '{path.text}'"
  | .fieldCrossed segment owner path =>
    s!"'{segment}' is a field of {owner} and cannot be traversed in '{path.text}'"
  | .noProperty segment owner path => s!"no property '{segment}' on {owner} (path '{path.text}')"
  | .collectionCrossed owner association path =>
    s!"collection association '{owner}.{association}' cannot be traversed in '{path.text}'"
  | .unknownEntity entity => s!"unknown entity '{entity}'"
  | .noEnd path => s!"path '{path.text}' does not end in a property"

namespace Resolution

/-- The field at the end, if it is one. -/
def field? (r : Resolution) : Option Field :=
  match r.terminal with
  | .field f => some f
  | .association _ => none

/-- The association at the end, if it is one. -/
def association? (r : Resolution) : Option Association :=
  match r.terminal with
  | .field _ => none
  | .association a => some a

/-- Whether the path ends in a field. -/
def isField (r : Resolution) : Bool := r.field?.isSome

/-- Whether an association is followed on the way. -/
def crossesAssociation (r : Resolution) : Bool := !r.hops.isEmpty

/-- The part of the path that has to be joined. -/
def joinPath? (r : Resolution) : Option Path :=
  if r.hops.isEmpty then none else some r.path.parent

end Resolution

namespace Schema

/-- Follows segments from an entity that was reached over the given associations. -/
def follow (schema : Schema) (path : Path) (hops : List Association) (owner : Entity) :
    List String → Except PathDefect Resolution
  | [] => .error (.noEnd path)
  | segment :: rest =>
    -- A field hides an association of the same name, also in the middle of a path.
    match owner.fieldNamed? segment with
    | some field =>
      if rest.isEmpty then .ok ⟨path, hops, owner, .field field⟩
      else .error (.fieldCrossed segment owner.name path)
    | none =>
      match owner.associationNamed? segment with
      | none => .error (.noProperty segment owner.name path)
      | some a =>
        if rest.isEmpty then .ok ⟨path, hops, owner, .association a⟩
        else if !a.isToOne then .error (.collectionCrossed owner.name a.name path)
        else
          match schema.entity? a.target with
          | none => .error (.unknownEntity a.target)
          | some target => schema.follow path (hops ++ [a]) target rest

/-- Follows a path from an entity. -/
def resolve (schema : Schema) (root : Entity) (path : Path) : Except PathDefect Resolution :=
  -- An empty name is refused even if something was declared under it.
  if path.segments.isEmpty || path.segments.any (·.isEmpty) then .error (.emptySegment path)
  else schema.follow path [] root path.segments

end Schema

end EntityQuery
