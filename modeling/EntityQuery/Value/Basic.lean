import EntityQuery.Calendar.DateText
import EntityQuery.Number.RealText
import EntityQuery.Text.Json
import EntityQuery.Text.Quoted

namespace EntityQuery

/-!
# Values

What a column can hold and a parameter can stand for: nothing, integers of 64 bits, real numbers,
texts, truth values and dates, and for parameters also lists. Each value has three written forms:
as it is shown on its own, as it stands in messages, and in documents.
-/

/-- The types a field can have. -/
inductive ScalarType where
  | integer
  | real
  | text
  | boolean
  | date
deriving DecidableEq, Repr

/-- The values that are bound to statements and read from rows. A list stands for several values of one
    parameter and is never stored. -/
inductive Value where
  | null
  | integer (n : Int64)
  | real (x : Binary64)
  | text (s : String)
  | boolean (b : Bool)
  | date (d : Date)
  | list (items : List Value)
deriving Inhabited

namespace Value

/-- Whether a value is the absent one. -/
def isNull : Value → Bool
  | .null => true
  | _ => false

/-- Whether a value is a list. -/
def isList : Value → Bool
  | .list _ => true
  | _ => false

/-- The integer that a value is. -/
def asInteger? : Value → Option Int64
  | .integer n => some n
  | _ => none

/-- The text that a value is. -/
def asText? : Value → Option String
  | .text s => some s
  | _ => none

/-- An integer counts as a truth value: all but zero are true. -/
def asBoolean? : Value → Option Bool
  | .boolean b => some b
  | .integer n => some (n != 0)
  | _ => none

/-! ### Written forms -/

/-- A boolean in words. -/
def booleanText (b : Bool) : String := if b then "true" else "false"

mutual

/-- A value on its own. -/
def shown : Value → String
  | .null => "null"
  | .integer n => toString n.toInt
  | .real x => RealForm.plain.write x
  | .text s => s
  | .boolean b => booleanText b
  | .date d => d.text
  | .list items => "[" ++ ", ".intercalate (shownItems items) ++ "]"

/-- Each item as a value on its own is shown. -/
def shownItems : List Value → List String
  | [] => []
  | item :: items => item.shown :: shownItems items

end

mutual

/-- A value inside a message: its kind is named and texts are quoted. -/
def inMessage : Value → String
  | .null => "Null"
  | .integer n => "Integer(" ++ toString n.toInt ++ ")"
  | .real x => "Real(" ++ RealForm.inMessages.write x ++ ")"
  | .text s => "Text(" ++ Text.quoted s ++ ")"
  | .boolean b => "Boolean(" ++ booleanText b ++ ")"
  | .date d => "Date(" ++ d.text ++ ")"
  | .list items => "List([" ++ ", ".intercalate (inMessageItems items) ++ "])"

/-- Each item as messages have it. -/
def inMessageItems : List Value → List String
  | [] => []
  | item :: items => item.inMessage :: inMessageItems items

end

mutual

/-- A value inside a document: dates are strings, and what is not a finite number is null. -/
def toJson : Value → Text.Json
  | .null => .null
  | .integer n => .number (toString n.toInt)
  | .real x => if x.isFinite then .number (RealForm.inDocuments.write x) else .null
  | .text s => .string s
  | .boolean b => .boolean b
  | .date d => .string d.text
  | .list items => .array (toJsonItems items)

/-- Each item as JSON. -/
def toJsonItems : List Value → List Text.Json
  | [] => []
  | item :: items => item.toJson :: toJsonItems items

end

end Value

end EntityQuery
