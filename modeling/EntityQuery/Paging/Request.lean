import EntityQuery.Error.Basic
import EntityQuery.Number.Word
import EntityQuery.Query.SortOrder

namespace EntityQuery

/-!
# Page requests

A request names a page by its index, counted from zero, and the size of all pages. Indexes, sizes
and offsets fit into words without a sign.
-/

/-- The page that is asked for, the size of all pages, and the order of the results. -/
structure PageRequest where
  page : Nat
  size : Nat
  order : SortOrder := []
deriving DecidableEq, Repr

namespace PageRequest

/-- A page has to have room for a row. -/
def of (page size : Nat) : Except Error PageRequest :=
  if size = 0 then .error (.definition "page request" .emptyPage) else .ok ⟨page, size, []⟩

/-- The same page of results in another order. -/
def sorted (r : PageRequest) (order : SortOrder) : PageRequest := { r with order }

/-- The number of rows before the page. -/
def offset (r : PageRequest) : Except ParameterFault Nat :=
  if r.page * r.size < wordLimit then .ok (r.page * r.size) else .error (.pageTooFar r.page r.size)

/-- The next page; the last index there can be is its own successor. -/
def next (r : PageRequest) : PageRequest := { r with page := min (r.page + 1) (wordLimit - 1) }

/-- The page before this one, if there is one. -/
def previous? (r : PageRequest) : Option PageRequest :=
  match r.page with
  | 0 => none
  | page + 1 => some { r with page }

/-- The request with a size of at most `greatest`. -/
def clamped (r : PageRequest) (greatest : Nat) : PageRequest := { r with size := min r.size greatest }

end PageRequest

end EntityQuery
