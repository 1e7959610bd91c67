import EntityQuery.Number.Word
import EntityQuery.Query.Predicate

namespace EntityQuery

/-!
# Statements

A statement is text with the values it needs in between: slots that are filled when it is bound, and
values that are known already. Two pieces of text never stand side by side, they are one.
-/

/-- Why a statement cannot be bound or windowed. -/
inductive ParameterFault where
  | windowTooLarge (rows : Nat)
  | listForValue (slot : Slot)
  | noValue (slot : Slot) (positional named : Nat)
  | pageTooFar (page size : Nat)
deriving DecidableEq, Repr

/-- What is said of each fault, with the slot as the text names it. -/
def ParameterFault.message : ParameterFault → String
  | .windowTooLarge rows => s!"row window {rows} is out of range"
  | .listForValue slot => s!"a list was bound to {slot.text}, which takes a single value"
  | .noValue slot positional named =>
    s!"no value for {slot.text} ({positional} positional and {named} named arguments given)"
  | .pageTooFar page size => s!"page {page} of size {size} is beyond any addressable row"

/-- A statement whose values are all known, in the order of their placeholders. -/
structure Bound where
  sql : String
  values : List Value

/-- A piece of a statement before it is bound: text, a place where a value of the call goes, or a value that
    was written in the query itself. -/
inductive Fragment where
  | sql (text : String)
  /-- One value, given when the statement is bound. -/
  | slot (slot : Slot)
  /-- A list of values, given when the statement is bound. -/
  | slotList (slot : Slot)
  | value (value : Value)
  | valueList (items : List Value)

namespace Fragment

/-- A fragment as it is shown, with a slot's name where its value will stand. -/
def text : Fragment → String
  | .sql text => text
  | .slot s => s.text
  | .slotList s => "(" ++ s.text ++ ")"
  | .value v => v.shown
  | .valueList items => (Value.list items).shown

/-- A placeholder for each item; without any item nothing can match. -/
def bindList (items : List Value) : Bound :=
  if items.isEmpty then ⟨"(NULL)", []⟩
  else ⟨"(" ++ ", ".intercalate (items.map fun _ => "?") ++ ")", items⟩

/-- The text of a fragment and its values. A single value is taken for a list of one, but never a
    list for a single value. -/
def bind (lookup : Slot → Except ParameterFault Value) : Fragment → Except ParameterFault Bound
  | .sql text => .ok ⟨text, []⟩
  | .slot s => do
    let v ← lookup s
    if v.isList then throw (.listForValue s) else return ⟨"?", [v]⟩
  | .slotList s => do
    match ← lookup s with
    | .list items => return bindList items
    | v => return bindList [v]
  | .value v => .ok ⟨"?", [v]⟩
  | .valueList items => .ok (bindList items)

end Fragment

/-- A statement before it is bound: its fragments, with no two texts side by side. -/
structure Statement where
  fragments : List Fragment := []

namespace Statement

/-! ### Building -/

/-- A fragment at the end of others; text joins the text before it. -/
def addTo : List Fragment → Fragment → List Fragment
  | [], f => [f]
  | [.sql before], .sql text => [.sql (before ++ text)]
  | f :: fs, g => f :: addTo fs g

/-- One more fragment at the end. A text is put behind the text that is there, if the statement ends in one.
    -/
def push (s : Statement) (f : Fragment) : Statement := ⟨addTo s.fragments f⟩

/-- One more text at the end. -/
def pushSql (s : Statement) (text : String) : Statement := s.push (.sql text)

/-- All fragments pushed one after the other. -/
def pushAll (s : Statement) (fragments : List Fragment) : Statement := fragments.foldl push s

/-- The statement of some fragments. -/
def ofFragments (fragments : List Fragment) : Statement := pushAll {} fragments

/-- The fragments of another statement behind those of this one. -/
def concat (a b : Statement) : Statement := a.pushAll b.fragments

/-- A number of rows as a value. -/
def windowBound (rows : Nat) : Except ParameterFault Fragment :=
  match signedWord? rows with
  | some n => .ok (.value (.integer n))
  | none => .error (.windowTooLarge rows)

/-- The statement restricted to at most `limit` rows after the first `offset` ones. -/
def window (s : Statement) (limit : Option Nat) (offset : Nat) : Except ParameterFault Statement := do
  match limit with
  | some limit =>
    let limited := (s.pushSql " LIMIT ").push (← windowBound limit)
    if 0 < offset then return (limited.pushSql " OFFSET ").push (← windowBound offset)
    else return limited
  | none =>
    if 0 < offset then return (s.pushSql " LIMIT -1 OFFSET ").push (← windowBound offset)
    else return s

/-! ### Reading and binding -/

/-- The statement as a reader sees it. -/
def text (s : Statement) : String := String.join (s.fragments.map Fragment.text)

/-- The bound fragments one after the other; the first that cannot be bound decides. -/
def bind (s : Statement) (lookup : Slot → Except ParameterFault Value) : Except ParameterFault Bound := do
  let parts ← s.fragments.mapM (Fragment.bind lookup)
  return ⟨String.join (parts.map Bound.sql), parts.flatMap Bound.values⟩

end Statement

end EntityQuery
