import EntityQuery.Schema.Path

namespace EntityQuery

/-!
# Sorting

A sort order is a list of directives, the most significant one first.
-/

/-- Whether the least value comes first or last. -/
inductive Direction where
  | ascending
  | descending
deriving DecidableEq, Repr

/-- The word of a direction in a statement. -/
def Direction.sql : Direction → String
  | .ascending => "ASC"
  | .descending => "DESC"

/-- A property to sort by, and the direction of its values. -/
structure SortDirective where
  path : Path
  direction : Direction
deriving DecidableEq, Repr

/-- Later directives decide among rows that are equal by the earlier ones. -/
abbrev SortOrder := List SortDirective

/-- The same direction for several properties. -/
def SortOrder.uniform (direction : Direction) (properties : List String) : SortOrder :=
  properties.map fun property => ⟨.parse property, direction⟩

end EntityQuery
