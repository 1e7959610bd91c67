import EntityQuery.Sql.Statement

namespace EntityQuery

/-!
# Conditions

A condition is a predicate whose properties were replaced by columns and whose operands fit their
operators. `κ` is what a column is known by: its name, or its name and the table it is read from.
-/

/-- One value of a statement. -/
inductive Term where
  | slot (slot : Slot)
  | value (value : Value)

/-- A list of values of a statement. -/
inductive TermList where
  | slot (slot : Slot)
  | values (items : List Value)

/-- A condition over columns of some kind: the columns of a plan's joined tables, or those of one table. -/
inductive Condition (κ : Type) where
  | isNull (column : κ)
  | isNotNull (column : κ)
  | compare (column : κ) (operator : Operator) (term : Term)
  | member (column : κ) (terms : TermList)
  | and (left right : Condition κ)
  | or (left right : Condition κ)

/-- The fragment of a single value. -/
def Term.fragment : Term → Fragment
  | .slot s => .slot s
  | .value v => .value v

/-- The fragment of a list; its question marks are known when it is bound. -/
def TermList.fragment : TermList → Fragment
  | .slot s => .slotList s
  | .values items => .valueList items

namespace Condition

variable {κ : Type}

/-- A comparison of a column. A null test ignores its operand, membership takes a single literal for
    a list of one, and every other operator needs an operand. -/
def ofComparison? (column : κ) : Operator → Operand → Option (Condition κ)
  | .isNull, _ => some (.isNull column)
  | .isNotNull, _ => some (.isNotNull column)
  | .isIn, .slot s => some (.member column (.slot s))
  | .isIn, .literal (.list items) => some (.member column (.values items))
  | .isIn, .literal value => some (.member column (.values [value]))
  | operator, .slot s => some (.compare column operator (.slot s))
  | operator, .literal value => some (.compare column operator (.value value))
  | _, .none => none

/-- The condition of a predicate; `column` finds the column of a path and `noOperand` is the fault
    of a comparison that lacks its operand. -/
def ofPredicate {ε : Type} (column : Path → Except ε κ) (noOperand : Path → Operator → ε) :
    Predicate → Except ε (Condition κ)
  | .comparison path operator operand => do
    match ofComparison? (← column path) operator operand with
    | some condition => return condition
    | none => throw (noOperand path operator)
  | .and l r => do return .and (← ofPredicate column noOperand l) (← ofPredicate column noOperand r)
  | .or l r => do return .or (← ofPredicate column noOperand l) (← ofPredicate column noOperand r)

/-- The fragments of a condition; `name` is the text of a column. -/
def fragments (name : κ → String) : Condition κ → List Fragment
  | .isNull column => [.sql (name column ++ " " ++ Operator.isNull.sql)]
  | .isNotNull column => [.sql (name column ++ " " ++ Operator.isNotNull.sql)]
  | .compare column operator term => [.sql (name column ++ " " ++ operator.sql ++ " "), term.fragment]
  | .member column terms => [.sql (name column ++ " " ++ Operator.isIn.sql ++ " "), terms.fragment]
  | .and l r => .sql "(" :: (l.fragments name ++ .sql " AND " :: (r.fragments name ++ [.sql ")"]))
  | .or l r => .sql "(" :: (l.fragments name ++ .sql " OR " :: (r.fragments name ++ [.sql ")"]))

/-- A condition as the last part of a statement. -/
def whereFragments (name : κ → String) : Option (Condition κ) → List Fragment
  | none => []
  | some condition => .sql " WHERE " :: condition.fragments name

end Condition

end EntityQuery
