import EntityQuery.Paging.Request
import EntityQuery.Text.Json

namespace EntityQuery

/-!
# Pages and slices

Both hold the results of one request. A page knows the total number of results, a slice only knows
whether more of them follow.
-/

/-- The results of one page, the request that asked for it, and the number of all results. -/
structure Page (α : Type) where
  content : List α
  request : PageRequest
  total : Nat

/-- The results of one page, the request that asked for it, and whether more results follow. -/
structure Slice (α : Type) where
  content : List α
  request : PageRequest
  hasNext : Bool

namespace Page

variable {α β : Type}

/-- The number of pages of this size that hold all results. -/
def pages (p : Page α) : Nat := (p.total + p.request.size - 1) / p.request.size

/-- Whether a further page holds results. Without results there is no page at all, and none follows. -/
def hasNext (p : Page α) : Bool := decide (p.request.page < p.pages - 1)

/-- The request for the page behind this one, if there is one. -/
def next? (p : Page α) : Option PageRequest := if p.hasNext then some p.request.next else none

/-- The request for the page in front of this one, if there is one. -/
def previous? (p : Page α) : Option PageRequest := p.request.previous?

/-- Maps all results. -/
def map (f : α → β) (p : Page α) : Page β := { p with content := p.content.map f }

/-- Maps all results, or fails like the first that cannot be mapped. -/
def mapExcept {ε : Type} (f : α → Except ε β) (p : Page α) : Except ε (Page β) := do
  return { p with content := ← p.content.mapM f }

/-- The document of a page, with its position among all pages. -/
def toJson (item : α → Text.Json) (p : Page α) : Text.Json :=
  .object [("content", .array (p.content.map item)), ("number", .nat p.request.page),
    ("size", .nat p.request.size), ("totalElements", .nat p.total), ("totalPages", .nat p.pages),
    ("first", .boolean (p.request.page == 0)), ("last", .boolean !p.hasNext),
    ("hasNext", .boolean p.hasNext)]

end Page

namespace Slice

variable {α β : Type}

/-- The request for the slice behind this one, if there is one. -/
def next? (s : Slice α) : Option PageRequest := if s.hasNext then some s.request.next else none

/-- The request for the slice in front of this one, if there is one. -/
def previous? (s : Slice α) : Option PageRequest := s.request.previous?

/-- Maps all results. -/
def map (f : α → β) (s : Slice α) : Slice β := { s with content := s.content.map f }

/-- Maps all results, or fails like the first that cannot be mapped. -/
def mapExcept {ε : Type} (f : α → Except ε β) (s : Slice α) : Except ε (Slice β) := do
  return { s with content := ← s.content.mapM f }

/-- The document of a slice: its last one is known, but not the number of all. -/
def toJson (item : α → Text.Json) (s : Slice α) : Text.Json :=
  .object [("content", .array (s.content.map item)), ("number", .nat s.request.page),
    ("size", .nat s.request.size), ("first", .boolean (s.request.page == 0)),
    ("last", .boolean !s.hasNext), ("hasNext", .boolean s.hasNext)]

end Slice

end EntityQuery
