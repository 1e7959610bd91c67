import EntityQuery.Number.Whole
import EntityQuery.Text.Utf8
import EntityQuery.Value.Basic

namespace EntityQuery

/-!
# Faults in reading

What can go wrong between the rows of a store and the values that a caller reads from them.
-/

/-- Why a row, or what has been read from one, is not what the reader needs; each fault names what was
    looked for and what was found. -/
inductive ReadFault where
  /-- A text where a date is expected. -/
  | invalidDate (text : String) (fault : DateFault)
  /-- Bytes where a text is expected. -/
  | invalidText (fault : Text.Utf8Fault)
  | blobColumn
  | notText (found : Value)
  | notInteger (found : Value)
  /-- An association that was not fetched is read. -/
  | detached (entity association : String)
  | collection (association entity : String)
  | noCollection (association entity : String)
  | noArgument (type parameter : String)
  /-- A result of another kind than the caller expects. -/
  | otherKind (expected found : String)
  | noScalarColumn (label : String)
  | openTarget
  | noEntity
  | noFieldColumn (field entity : String)
  | noFetchedColumn (label entity : String)
  | unknownEntity (entity : String)
  | noViewColumn (view label : String)
  | noParameterColumn (type parameter : String) (columns : List String)
  | severalColumns (type parameter : String) (count : Nat)
  /-- A target is to be given with each call and the one given is of that sort again. -/
  | dynamicTwice
  | dynamicMissing
  | noCountRow (definition : String)
  | countNotInteger (definition : String) (found : Value)
  | negativeCount (count : Int64)
  | noAssociation (entity association : String)
  /-- A computed accessor refuses. -/
  | refused (reason : String)

namespace ReadFault

/-- The cause alone. -/
def cause : ReadFault → String
  | .invalidDate text fault => s!"invalid date '{text}': " ++ fault.message
  | .invalidText fault => "invalid text column: " ++ fault.message
  | .blobColumn => "blob columns are not supported"
  | .notText found => "expected text, found " ++ found.inMessage
  | .notInteger found => "expected integer, found " ++ found.inMessage
  | .detached entity association => s!"association '{association}' of {entity} was not fetched"
  | .collection association entity => s!"association '{association}' of {entity} is a collection"
  | .noCollection association entity =>
    s!"association '{association}' of {entity} is not a collection"
  | .noArgument type parameter => s!"{type} has no constructor argument '{parameter}'"
  | .otherKind expected found =>
    s!"projection shape mismatch: expected {expected}, found {found}"
  | .noScalarColumn label => s!"no column '{label}' for scalar projection"
  | .openTarget => "dynamic projection reached the mapper unresolved"
  | .noEntity => "entity projection requires a known entity"
  | .noFieldColumn field entity => s!"no column for field '{field}' of {entity}"
  | .noFetchedColumn label entity => s!"no column '{label}' for fetched {entity}"
  | .unknownEntity entity => s!"unknown entity '{entity}'"
  | .noViewColumn view label =>
    s!"projection shape mismatch: {view} expects '{label}' but no such column was selected"
  | .noParameterColumn type parameter columns =>
    s!"{type} parameter '{parameter}' has no matching column (selected: "
      ++ ", ".intercalate columns ++ ")"
  | .severalColumns type parameter count => s!"{type} parameter '{parameter}' matches {count} columns"
  | .dynamicTwice => "a dynamic projection cannot be resolved to another dynamic projection"
  | .dynamicMissing => "dynamic projection requires a target type at call time"
  | .noCountRow definition => s!"count query of '{definition}' returned no row"
  | .countNotInteger definition found => s!"count query of '{definition}' returned " ++ found.shown
  | .negativeCount count =>
    "negative count " ++ toString count.toInt ++ ": " ++ WholeFault.tooSmall.message
  | .noAssociation entity association => s!"{entity} has no association '{association}'"
  | .refused reason => reason

/-- The cause with the class of the fault before it. -/
def message : ReadFault → String
  | .detached entity association => "Detached access: " ++ cause (.detached entity association)
  | fault => "Mapping error: " ++ fault.cause

end ReadFault

end EntityQuery
