import EntityQuery.Result.Projected
import EntityQuery.Schema.Path

namespace EntityQuery

/-!
# Projection targets

A target says what each row is read as. The accessors of a closed view are known beforehand, so
only their columns have to be selected; those of an open view are computed from a whole record.
-/

mutual

/-- What an accessor of a closed view reads: a field, or the entity behind an association as a view of its
    own. -/
inductive Accessor where
  | field (name : String)
  | nested (association : String) (view : ClosedView)

/-- A view whose accessors name fields and associations. -/
inductive ClosedView where
  | mk (name : String) (accessors : List Accessor)

end

namespace ClosedView

/-- The name of the interface. -/
def name : ClosedView → String
  | .mk name _ => name

/-- Its accessors, in the order of their declaration. -/
def accessors : ClosedView → List Accessor
  | .mk _ accessors => accessors

end ClosedView

/-- An accessor that is computed from a record. -/
structure OpenAccessor where
  name : String
  compute : Record → Except ReadFault Value

/-- An interface whose entries are computed. -/
structure OpenView where
  name : String
  accessors : List OpenAccessor

/-- The parameters of a constructor; each takes the value of the column of its name. -/
structure Constructor where
  type : String
  parameters : List String
deriving DecidableEq, Repr

/-- What a row is read as. -/
inductive Target where
  | entity
  | scalar (path : Path)
  | closed (view : ClosedView)
  | opened (view : OpenView)
  | constructor (shape : Constructor)
  /-- The target is given with each call. -/
  | dynamic

namespace Target

/-- Whether only the columns that the target reads have to be selected. -/
def isNarrow : Target → Bool
  | .scalar _ | .closed _ | .constructor _ => true
  | .entity | .opened _ | .dynamic => false

/-- Whether the target is left to the call. -/
def isDynamic : Target → Bool
  | .dynamic => true
  | _ => false

/-- Puts the target given with a call in the place of a dynamic one; any other target stays. -/
def resolve (declared : Target) (given : Option Target) : Except ReadFault Target :=
  match declared, given with
  | .dynamic, some .dynamic => .error .dynamicTwice
  | .dynamic, some target => .ok target
  | .dynamic, none => .error .dynamicMissing
  | target, _ => .ok target

end Target

/-! ### Computed accessors -/

/-- A small language for computed accessors. -/
inductive RecordExpr where
  | constant (value : Value)
  | field (name : String)
  | throughAssociation (association field : String)
  | id
  | isLoaded (association : String)
  | size (association : String)
  | concatenation (parts : List RecordExpr)
  | refusal (reason : String)

namespace RecordExpr

mutual

/-- The value of an expression on a record. What is not there reads as null, but an association
    that was not fetched is a fault. -/
def eval (r : Record) : RecordExpr → Except ReadFault Value
  | .constant value => .ok value
  | .field name => .ok ((r.get? name).getD .null)
  | .throughAssociation association name => do
    return ((← r.association association).bind (·.get? name)).getD .null
  | .id => .ok r.id
  | .isLoaded association => .ok (.boolean (r.isLoaded association))
  | .size association => do
    return .integer (Int64.ofNat (← r.collection association).length)
  | .concatenation parts => do
    return .text (String.join ((← evalParts r parts).map Value.shown))
  | .refusal reason => .error (.refused reason)

/-- The values of expressions, up to the first that fails. -/
def evalParts (r : Record) : List RecordExpr → Except ReadFault (List Value)
  | [] => .ok []
  | part :: parts => do
    let value ← part.eval r
    return value :: (← evalParts r parts)

end

end RecordExpr

end EntityQuery
