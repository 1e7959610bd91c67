namespace EntityQuery.Text

/-!
# Bytes read as text

Strict UTF-8: no overlong forms, no surrogates, nothing above the last code point. A fault is
reported with the number of bytes before it.
-/

/-- Why bytes are no text. Both faults hold the index of the first byte that could not be read;
    a sequence that is wrong, rather than cut off, also has the number of bytes it spans. -/
inductive Utf8Fault where
  | invalid (length index : Nat)
  | incomplete (index : Nat)
deriving DecidableEq, Repr

/-- What is said of a fault. -/
def Utf8Fault.message : Utf8Fault → String
  | .invalid length index => s!"invalid utf-8 sequence of {length} bytes from index {index}"
  | .incomplete index => s!"incomplete utf-8 byte sequence from index {index}"

/-- A byte that continues a sequence. -/
def isContinuation (b : UInt8) : Bool := decide (0x80 ≤ b) && decide (b ≤ 0xBF)

/-- How many bytes a sequence that begins with this one has, if any does. -/
def sequenceLength (b : UInt8) : Option Nat :=
  if b < 0x80 then some 1
  else if 0xC2 ≤ b && b ≤ 0xDF then some 2
  else if 0xE0 ≤ b && b ≤ 0xEF then some 3
  else if 0xF0 ≤ b && b ≤ 0xF4 then some 4
  else none

/-- Which second bytes may follow the first one of a sequence: the bounds leave out overlong
    forms, surrogates and numbers above the last code point. -/
def allowsSecond (first second : UInt8) : Bool :=
  let least : UInt8 := if first = 0xE0 then 0xA0 else if first = 0xF0 then 0x90 else 0x80
  let greatest : UInt8 := if first = 0xED then 0x9F else if first = 0xF4 then 0x8F else 0xBF
  decide (least ≤ second) && decide (second ≤ greatest)

/-- The first fault of a byte sequence, if it has one; `index` counts the bytes before it. -/
def firstFault (index : Nat) : List UInt8 → Option Utf8Fault
  | [] => none
  | a :: rest =>
    match sequenceLength a, rest with
    | some 1, rest => firstFault (index + 1) rest
    | some 2, b :: rest =>
      if isContinuation b then firstFault (index + 2) rest else some (.invalid 1 index)
    | some 3, b :: rest =>
      if !allowsSecond a b then some (.invalid 1 index)
      else match rest with
        | [] => some (.incomplete index)
        | c :: rest =>
          if isContinuation c then firstFault (index + 3) rest else some (.invalid 2 index)
    | some 4, b :: rest =>
      if !allowsSecond a b then some (.invalid 1 index)
      else match rest with
        | [] => some (.incomplete index)
        | c :: rest =>
          if !isContinuation c then some (.invalid 2 index)
          else match rest with
            | [] => some (.incomplete index)
            | d :: rest =>
              if isContinuation d then firstFault (index + 4) rest else some (.invalid 3 index)
    | some _, _ => some (.incomplete index)
    | none, _ => some (.invalid 1 index)

/-- The bytes of a text. -/
def utf8 (text : String) : List UInt8 := text.toByteArray.data.toList

/-- The text that bytes stand for, or the place where they stop being one. -/
def ofUtf8 (bytes : List UInt8) : Except Utf8Fault String :=
  match String.fromUTF8? ⟨bytes.toArray⟩ with
  | some text => .ok text
  | none => .error ((firstFault 0 bytes).getD (.incomplete bytes.length))

end EntityQuery.Text
