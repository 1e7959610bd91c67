import EntityQuery.Schema.Path
import EntityQuery.Value.Basic

namespace EntityQuery

/-!
# Predicates

A predicate compares properties with operands and combines comparisons by conjunction and
disjunction. Everything that is asked of a predicate is told in visiting order: left before right.
-/

/-- The operators of comparisons. -/
inductive Operator where
  | equals
  | notEquals
  | greaterThan
  | greaterThanEqual
  | lessThan
  | lessThanEqual
  | isIn
  | isNull
  | isNotNull
  | like
deriving DecidableEq, Repr

namespace Operator

/-- A null test stands alone, every other operator takes one operand. -/
def arity : Operator → Nat
  | .isNull | .isNotNull => 0
  | _ => 1

/-- Only the test for null can hold of a missing value. -/
def rejectsNull : Operator → Bool
  | .isNull => false
  | _ => true

/-- The words of an operator in a statement. -/
def sql : Operator → String
  | .equals => "="
  | .notEquals => "<>"
  | .greaterThan => ">"
  | .greaterThanEqual => ">="
  | .lessThan => "<"
  | .lessThanEqual => "<="
  | .isIn => "IN"
  | .isNull => "IS NULL"
  | .isNotNull => "IS NOT NULL"
  | .like => "LIKE"

end Operator

/-- The place of an argument: its index among the arguments of a call, and a name if it is known by
    one. -/
structure Slot where
  index : Nat
  name : Option String := none
deriving DecidableEq, Repr

/-- A named slot is written with a colon, another one with its position counted from one. -/
def Slot.text (slot : Slot) : String :=
  match slot.name with
  | some name => ":" ++ name
  | none => "?" ++ toString (slot.index + 1)

/-- What a property is compared with: an argument of the call, a known value, or nothing at all. -/
inductive Operand where
  | slot (slot : Slot)
  | literal (value : Value)
  | none

namespace Operand

/-- The slot of an operand, if it has one. -/
def slots : Operand → List Slot
  | .slot s => [s]
  | _ => []

end Operand

/-- A tree of comparisons. -/
inductive Predicate where
  | comparison (path : Path) (operator : Operator) (operand : Operand)
  | and (left right : Predicate)
  | or (left right : Predicate)

namespace Predicate

/-- The conjunction of all predicates, grouped to the left; nothing for none. -/
def all : List Predicate → Option Predicate
  | [] => none
  | p :: ps => some (ps.foldl and p)

/-- The disjunction of all predicates, grouped to the left; nothing for none. -/
def any : List Predicate → Option Predicate
  | [] => none
  | p :: ps => some (ps.foldl or p)

/-- Every path that is compared. -/
def paths : Predicate → List Path
  | .comparison path _ _ => [path]
  | .and l r | .or l r => l.paths ++ r.paths

/-- Every slot that is compared with. -/
def slots : Predicate → List Slot
  | .comparison _ _ operand => operand.slots
  | .and l r | .or l r => l.slots ++ r.slots

/-- A comparison without its operand, and whether the whole predicate needs it to hold. -/
structure Comparison where
  path : Path
  operator : Operator
  required : Bool
deriving DecidableEq, Repr

/-- Every comparison. Below a disjunction none is required. -/
def comparisonsWhen (required : Bool) : Predicate → List Comparison
  | .comparison path operator _ => [⟨path, operator, required⟩]
  | .and l r => l.comparisonsWhen required ++ r.comparisonsWhen required
  -- The other side may hold instead, so neither has to.
  | .or l r => l.comparisonsWhen false ++ r.comparisonsWhen false

/-- Every comparison of a whole predicate. -/
def comparisons : Predicate → List Comparison := comparisonsWhen true

/-- The predicate with brackets around every conjunction and disjunction. -/
def text : Predicate → String
  | .comparison path operator operand =>
    path.text ++ " " ++ operator.sql ++
      match operand with
      | .slot slot => " " ++ slot.text
      | .literal value => " " ++ value.shown
      | .none => ""
  | .and l r => "(" ++ l.text ++ " AND " ++ r.text ++ ")"
  | .or l r => "(" ++ l.text ++ " OR " ++ r.text ++ ")"

end Predicate

end EntityQuery
