import EntityQuery.Value.Basic

namespace EntityQuery

/-!
# Rows

The answer of a store to a read: the names of the columns, which are known even when there is no
row, and for each row one value per column. Several columns may have the same name.
-/

/-- One row of an answer, with the labels of its columns. -/
structure Row where
  columns : List String
  values : List Value

namespace Row

/-- The pairs of a name and a value. -/
def pairs (row : Row) : List (String × Value) := row.columns.zip row.values

/-- The value of the first column with the given name. -/
def get? (row : Row) (column : String) : Option Value := row.pairs.lookup column

/-- How many columns have the given name. -/
def occurrences (row : Row) (column : String) : Nat := row.columns.count column

end Row

/-- What a store answers to a query: the labels once, and the values of each row in their order. -/
structure RowSet where
  columns : List String
  rows : List (List Value)

namespace RowSet

/-- How many rows there are. -/
def length (set : RowSet) : Nat := set.rows.length

/-- Whether there are none. -/
def isEmpty (set : RowSet) : Bool := set.rows.isEmpty

/-- The rows with the names of their columns. -/
def toRows (set : RowSet) : List Row := set.rows.map fun values => ⟨set.columns, values⟩

/-- The same columns with the first `n` rows. -/
def take (set : RowSet) (n : Nat) : RowSet := { set with rows := set.rows.take n }

/-- No columns and no rows. -/
def empty : RowSet := ⟨[], []⟩

end RowSet

end EntityQuery
