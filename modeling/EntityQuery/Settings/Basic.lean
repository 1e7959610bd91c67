import EntityQuery.Settings.Paging
import EntityQuery.Settings.Toml.Document

namespace EntityQuery

/-!
# Settings of the engine

A document, if there is one, is overlaid by those variables of the environment that are meant for
the application, and what comes of both is laid over the defaults. So a variable that replaces a
whole group of the document brings its defaults back. Settings are used only after the page sizes
have been checked.
-/

/-- What an engine is set up with. Each setting has the value it has when nothing says otherwise. -/
structure EngineSettings where
  /-- Where the store is; in memory when there is no path. -/
  path : Option String := none
  /-- How many milliseconds a statement waits for the write lock. -/
  busyTimeout : Nat := 5000
  paging : PagingSettings := {}
  /-- What is logged. -/
  filter : String := "info"
deriving DecidableEq, Repr

namespace EngineSettings

/-- The defaults as a tree. -/
def defaults : Setting :=
  .table [
    ("storage", .table [("busy_timeout_ms", .integer 5000)]),
    ("paging", .table [("default_page_size", .integer 20), ("max_page_size", .integer 2000)]),
    ("logging", .table [("filter", .text "info")])]

/-! ### Sources -/

/-- Overlays a tree with named settings one by one. -/
def overlayAll (given : List (String × Setting)) (tree : Setting) : Setting :=
  given.foldl (fun tree e => tree.put e.1 e.2) tree

/-- What a document says. A byte order mark in front of it is no part of it. -/
def ofDocument (document : String) : Except SettingsFault Setting :=
  let text := document.toList
  let text := if text.head? = some '\ufeff' then text.tail else text
  match Toml.parse? text with
  | some entries => .ok (overlayAll entries (.table []))
  | none => .error .unreadable

/-- What a variable says: a truth value, a number, or else its text. -/
def ofVariable (text : String) : Setting :=
  match String.ofList (text.toList.map Char.toLower) with
  | "true" => .boolean true
  | "false" => .boolean false
  | _ =>
    match Whole.signed? text.toList with
    | some n => .integer n
    | none =>
      match Binary64.parse? text with
      | some x => .real x
      | none => .text text

/-- The name of the place a variable is meant for: behind the application's name, two underscores
    stand before each step. Names are compared without case. -/
def placeOfVariable (application name : String) : Option String :=
  let lower (s : String) : List Char := s.toList.map Char.toLower
  let front := lower application ++ ['_', '_']
  let name := lower name
  if front.isPrefixOf name then
    some (".".intercalate ((String.ofList (name.drop front.length)).splitOn "__"))
  else none

/-- Variables in the order of their names' first mention; a name that is given again changes its
    value only. -/
def lastValues (given : List (String × String)) : List (String × String) :=
  given.foldl
    (fun known v =>
      if known.any (·.1 == v.1) then known.map fun k => if k.1 == v.1 then v else k
      else known ++ [v])
    []

/-- What the variables say that are meant for the application. -/
def ofVariables (application : String) (given : List (String × String)) : List (String × Setting) :=
  (lastValues given).filterMap fun v =>
    (placeOfVariable application v.1).map fun place => (place, ofVariable v.2)

/-! ### Reading the tree -/

/-- The parts of a group in the given order; a list names them by position. -/
def group (names : List String) : Setting → Except SettingsFault (List (Option Setting))
  | .table entries => .ok (names.map fun name => entries.lookup name)
  | .list items => .ok ((List.range names.length).map fun i => items[i]?)
  | _ => .error .unreadable

/-- A setting that has to be there and to be of the kind that is read. -/
def require {α : Type} (read : Setting → Option α) (setting : Option Setting) :
    Except SettingsFault α :=
  match setting.bind read with
  | some a => .ok a
  | none => .error .unreadable

/-- A text that may be left out. -/
def optionalText : Option Setting → Except SettingsFault (Option String)
  | none | some .nothing => .ok none
  | some setting => some <$> require Setting.toText? (some setting)

/-- The settings in a tree of them: the storage, paging and logging groups, with nothing else in them. -/
def ofTree (tree : Setting) : Except SettingsFault EngineSettings := do
  let part (name : String) (names : List String) : Except SettingsFault (List (Option Setting)) :=
    group names ((tree.get? name).getD .nothing)
  let storage ← part "storage" ["path", "busy_timeout_ms"]
  let paging ← part "paging" ["default_page_size", "max_page_size"]
  let logging ← part "logging" ["filter"]
  let path ← optionalText storage[0]?.join
  return {
    path
    busyTimeout := ← require Setting.toNat? storage[1]?.join
    paging := {
      defaultSize := ← require Setting.toNat? paging[0]?.join
      greatestSize := ← require Setting.toNat? paging[1]?.join }
    filter := ← require Setting.toText? logging[0]?.join }

/-- The settings of an application from all sources. -/
def load (application : String) (document : Option String) (given : List (String × String)) :
    Except SettingsFault EngineSettings := do
  let stated ← match document with
    | some document => ofDocument document
    | none => pure (.table [])
  let stated := overlayAll (ofVariables application given) stated
  let settings ← ofTree (overlayAll stated.entries defaults)
  settings.paging.check
  return settings

end EngineSettings

end EntityQuery
