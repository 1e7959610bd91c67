import EntityQuery.Store.Sharing
import EntityQuery.Store.Table

namespace EntityQuery

/-!
# Sessions

A table that units of work share.
-/

/-- A shared connection to a table. -/
abbrev Session := SharedConnection Table

namespace Session

/-- A new session, on an empty table. -/
instance : EmptyCollection Session := ⟨⟨{}, none⟩⟩

/-- Changes of the table on nobody's behalf. -/
def batch (changes : List Change) (s : Session) : Except Error Unit × Session :=
  SharedConnection.batch changes s

end Session

end EntityQuery
