import EntityQuery.Query.Basic

namespace EntityQuery

/-!
# Written templates

A template is a select, an update or a delete over entities and their properties. This is what was
written, before any name is looked up; numbers are still digits.
-/

/-- An alias and the properties behind it. -/
structure WrittenPath where
  base : String
  properties : List String := []
deriving DecidableEq, Repr

/-- The path as it is written. -/
def WrittenPath.text (p : WrittenPath) : String := ".".intercalate (p.base :: p.properties)

/-- A literal as it is written; the digits are kept, not their number. -/
inductive WrittenLiteral where
  | real (negative : Bool) (whole decimals : List Char)
  | integer (digits : List Char)
  | text (s : String)
  | boolean (b : Bool)
  | null
deriving DecidableEq, Repr

/-- A parameter or a literal, as written. -/
inductive WrittenOperand where
  | named (name : String)
  | positional (digits : List Char)
  | literal (literal : WrittenLiteral)
deriving DecidableEq, Repr

/-- What is asked of a property. -/
inductive WrittenTest where
  | isNull
  | isNotNull
  | oneOf (items : List WrittenLiteral)
  | compare (operator : Operator) (operand : WrittenOperand)
deriving DecidableEq, Repr

/-- A comparison, or a condition in brackets: alternatives, each of which is a conjunction. -/
inductive WrittenAtom where
  | comparison (path : WrittenPath) (test : WrittenTest)
  | group (alternatives : List (List WrittenAtom))

/-- A condition as it is written, without parentheses of its own: alternatives, each of them comparisons
    that hold together. -/
abbrev WrittenCondition := List (List WrittenAtom)

/-- A value of an assignment. Terms and operators of a chain stand as they are written. -/
inductive WrittenValue where
  | operand (operand : WrittenOperand)
  | path (path : WrittenPath)
  | chain (first : WrittenValue) (more : List (ArithmeticOperator × WrittenValue))

/-- One thing that is selected, with its label. -/
structure SelectItem where
  path : WrittenPath
  label : Option String
deriving DecidableEq, Repr

/-- What a query selects: paths, a count, or the arguments of a type. -/
inductive SelectClause where
  | items (items : List SelectItem)
  | count (distinct : Bool) (path : WrittenPath)
  | construct (type : String) (items : List SelectItem)
deriving DecidableEq, Repr

/-- A join as it is written. -/
structure WrittenJoin where
  kind : JoinKind
  fetch : Bool
  path : WrittenPath
  knownAs : Option String
deriving DecidableEq, Repr

/-- One term of an order as it is written. -/
structure WrittenOrder where
  path : WrittenPath
  direction : Direction
deriving DecidableEq, Repr

/-- A query as it is written. -/
structure WrittenSelect where
  distinct : Bool
  clause : SelectClause
  entity : String
  knownAs : String
  joins : List WrittenJoin
  condition : Option WrittenCondition
  order : List WrittenOrder

/-- What a bulk statement does, as written. -/
inductive WrittenMutation where
  | update (assignments : List (WrittenPath × WrittenValue))
  | delete

/-- An update or a deletion as it is written. -/
structure WrittenBulk where
  entity : String
  knownAs : String
  mutation : WrittenMutation
  condition : Option WrittenCondition

/-- A template as it is written. -/
inductive WrittenTemplate where
  | select (select : WrittenSelect)
  | bulk (bulk : WrittenBulk)

end EntityQuery
