import EntityQuery.Number.Word
import EntityQuery.Value.ReadFault

namespace EntityQuery

/-!
# Stored form

A store knows neither truth values nor dates nor lists: the first are stored as integers, dates as
text, and lists not at all. Reading a stored value gives the plain value; the type of the field
recovers what was lost.
-/

/-- What a column of a store holds. Texts are bytes, which need not be well formed. -/
inductive Stored where
  | null
  | integer (n : Int64)
  | real (x : Binary64)
  | text (bytes : List UInt8)
  | blob (bytes : List UInt8)
deriving DecidableEq

/-- Values are compared as numbers where they are numbers: a whole real is the integer it equals. -/
def Stored.key : Stored → Stored
  | .real x =>
    match x.whole? with
    | some n => ((signedWord? n).map .integer).getD (.real x)
    | none => .real x
  | stored => stored

namespace Value

/-- A truth value as a number. -/
def ofBoolean (b : Bool) : Int64 := if b then 1 else 0

/-- The stored form of a value; a list has none. -/
def store? : Value → Option Stored
  | .null => some .null
  | .integer n => some (.integer n)
  | .real x => some (.real x)
  | .text s => some (.text (Text.utf8 s))
  | .boolean b => some (.integer (ofBoolean b))
  | .date d => some (.text (Text.utf8 d.text))
  | .list _ => none

/-- Why a list has no stored form. -/
def unstorable : String := "list values must be expanded before binding"

/-- The value of a stored form, before the type of a field is known. -/
def ofStored : Stored → Except ReadFault Value
  | .null => .ok .null
  | .integer n => .ok (.integer n)
  | .real x => .ok (.real x)
  | .text bytes =>
    match Text.ofUtf8 bytes with
    | .ok s => .ok (.text s)
    | .error fault => .error (.invalidText fault)
  | .blob _ => .error .blobColumn

/-- A value that has to be a text. -/
def toText : Value → Except ReadFault String
  | .text s => .ok s
  | found => .error (.notText found)

/-- A value that has to be an integer. -/
def toInteger : Value → Except ReadFault Int64
  | .integer n => .ok n
  | found => .error (.notInteger found)

end Value

/-- Recovers the typed value from a plain one: integers become truth values or reals, texts become
    dates. Everything else stays as it is. -/
def ScalarType.coerce : ScalarType → Value → Except ReadFault Value
  | .boolean, .integer n => .ok (.boolean (n != 0))
  | .date, .text s =>
    match Date.parse s with
    | .ok d => .ok (.date d)
    | .error fault => .error (.invalidDate s fault)
  | .real, .integer n => .ok (.real (Binary64.ofInt n.toInt))
  | _, value => .ok value

end EntityQuery
