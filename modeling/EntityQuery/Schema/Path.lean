import EntityQuery.Text.Quoted

namespace EntityQuery

/-!
# Property paths

A path names a property by the associations to follow and the property to read at the end.
-/

/-- The names of a path, from the root on. -/
structure Path where
  segments : List String
deriving DecidableEq, Repr, Inhabited

namespace Path

/-- The path written with dots between its segments. -/
def parse (text : String) : Path := ⟨(text.toList.splitOn '.').map String.ofList⟩

/-- A path of one segment. -/
def single (segment : String) : Path := ⟨[segment]⟩

/-- The segments with dots between them. -/
def text (path : Path) : String := ".".intercalate path.segments

/-- The last segment; the path without segments has the empty one. -/
def leaf (path : Path) : String := path.segments.getLast?.getD ""

/-- All segments but the last. -/
def parent (path : Path) : Path := ⟨path.segments.dropLast⟩

/-- The path follows at least one association. -/
def isNested (path : Path) : Bool := decide (1 < path.segments.length)

/-- The path with one more segment at its end. -/
def child (path : Path) (segment : String) : Path := ⟨path.segments ++ [segment]⟩

/-- A path inside a message. -/
def inMessage (path : Path) : String := "FieldPath(" ++ Text.quotedList path.segments ++ ")"

end Path

end EntityQuery
