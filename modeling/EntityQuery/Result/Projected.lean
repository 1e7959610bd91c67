import EntityQuery.Result.Record

namespace EntityQuery

/-!
# Projected results

Besides whole records, a row can be read as a single value, as a view with named entries, or as the
arguments of a constructor. A caller names the kind of result that it expects.
-/

mutual

/-- An entry of a view. -/
inductive ViewEntry where
  | value (value : Value)
  | nested (view : Option View)

/-- A row read through the accessors of an interface. -/
inductive View where
  | mk (name : String) (entries : List (String × ViewEntry))

end

namespace View

/-- The name of the interface. -/
def name : View → String
  | .mk name _ => name

/-- What each accessor reads, in the order of their declaration. -/
def entries : View → List (String × ViewEntry)
  | .mk _ entries => entries

/-- The value of an accessor that is no nested view. -/
def get? (v : View) (accessor : String) : Option Value :=
  match v.entries.lookup accessor with
  | some (.value value) => some value
  | _ => none

/-- The view of an accessor that is one, if it is there. -/
def nested? (v : View) (accessor : String) : Option View :=
  match v.entries.lookup accessor with
  | some (.nested view) => view
  | _ => none

end View

mutual

/-- The document of an entry; a view that is missing is null. -/
def ViewEntry.toJson : ViewEntry → Text.Json
  | .value value => value.toJson
  | .nested none => .null
  | .nested (some view) => view.toJson

/-- The document of a view. -/
def View.toJson : View → Text.Json
  | .mk name entries =>
    .object [("shape", .string name), ("entries", .array (View.toJsonEntries entries))]

/-- The documents of entries, each with its name. -/
def View.toJsonEntries : List (String × ViewEntry) → List Text.Json
  | [] => []
  | (name, entry) :: entries => .pair name entry.toJson :: View.toJsonEntries entries

end

/-- A row read as the named arguments of a constructor, in the order of its parameters. -/
structure Arguments where
  type : String
  values : List (String × Value)

namespace Arguments

/-- The first argument with the given name. -/
def get? (a : Arguments) (parameter : String) : Option Value := a.values.lookup parameter

/-- The first argument with the given name, and the arguments without it. -/
def take (a : Arguments) (parameter : String) : Except ReadFault (Value × Arguments) :=
  match a.get? parameter with
  | some value => .ok (value, { a with values := a.values.eraseP (·.1 == parameter) })
  | none => .error (.noArgument a.type parameter)

/-- The document of arguments, with the name of their type. -/
def toJson (a : Arguments) : Text.Json :=
  .object [("type_name", .string a.type), ("arguments", namedValues a.values)]

end Arguments

/-- One row in the form asked for. -/
inductive Projected where
  | record (record : Record)
  | scalar (value : Value)
  | view (view : View)
  | arguments (arguments : Arguments)

namespace Projected

/-- The name of the kind of a result in messages. -/
def kind : Projected → String
  | .record _ => "entity"
  | .scalar _ => "scalar"
  | .view _ => "interface view"
  | .arguments _ => "constructor DTO"

/-- The document of a result. -/
def toJson : Projected → Text.Json
  | .record r => r.toJson
  | .scalar v => v.toJson
  | .view v => v.toJson
  | .arguments a => a.toJson

/-- The record that a result has to be. -/
def toRecord : Projected → Except ReadFault Record
  | .record r => .ok r
  | found => .error (.otherKind "entity" found.kind)

/-- The view that a result has to be. -/
def toView : Projected → Except ReadFault View
  | .view v => .ok v
  | found => .error (.otherKind "interface view" found.kind)

/-- The arguments that a result has to be. -/
def toArguments : Projected → Except ReadFault Arguments
  | .arguments a => .ok a
  | found => .error (.otherKind "constructor DTO" found.kind)

/-- The value that a result has to be. -/
def toScalar : Projected → Except ReadFault Value
  | .scalar v => .ok v
  | found => .error (.otherKind "scalar" found.kind)

end Projected

/-- The kinds of result that a caller can expect. -/
inductive Expected where
  | anything
  | record
  | view
  | arguments
  | scalar
  | text
  | integer
deriving DecidableEq, Repr

/-- A result as the caller gets it: as it was projected, or as a plain text or integer. -/
inductive Received where
  | projected (result : Projected)
  | text (s : String)
  | integer (n : Int64)

namespace Received

/-- A result of the expected kind; a text or an integer has to be a scalar first. -/
def ofProjected (expected : Expected) (result : Projected) : Except ReadFault Received :=
  match expected with
  | .anything => .ok (.projected result)
  | .record => do return .projected (.record (← result.toRecord))
  | .view => do return .projected (.view (← result.toView))
  | .arguments => do return .projected (.arguments (← result.toArguments))
  | .scalar => do return .projected (.scalar (← result.toScalar))
  | .text => do return .text (← (← result.toScalar).toText)
  | .integer => do return .integer (← (← result.toScalar).toInteger)

/-- The document of what the caller gets. -/
def toJson : Received → Text.Json
  | .projected result => result.toJson
  | .text s => .string s
  | .integer n => .number (toString n.toInt)

end Received

end EntityQuery
