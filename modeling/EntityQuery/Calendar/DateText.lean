import EntityQuery.Calendar.Date
import EntityQuery.Number.Word
import EntityQuery.Text.Blank
import EntityQuery.Text.DecimalDigit

namespace EntityQuery

/-!
# Dates as text

A date is written as year, month and day with hyphens between them. Writing pads with zeros and
gives a year outside of 0 to 9999 a sign. Reading is more lenient: blanks may stand before each
number, numbers need no padding, and a sign before the year lifts the limit on its digits.
-/

/-- Why a text is no date. -/
inductive DateFault where
  | outOfRange
  | invalid
  | tooShort
  | tooLong
deriving DecidableEq, Repr

/-- The fault in words. -/
def DateFault.message : DateFault → String
  | .outOfRange => "input is out of range"
  | .invalid => "input contains invalid characters"
  | .tooShort => "premature end of input"
  | .tooLong => "trailing input"

namespace Date

/-! ### Writing -/

/-- A number in decimal with at least the given number of digits. -/
def padded (width n : Nat) : List Char :=
  let digits := Nat.toDigits 10 n
  List.replicate (width - digits.length) '0' ++ digits

/-- Four digits are enough for the years 0 to 9999; all others carry their sign. -/
def yearText (year : Int) : List Char :=
  if 0 ≤ year ∧ year ≤ 9999 then padded 4 year.toNat
  else (if year < 0 then '-' else '+') :: padded 4 year.natAbs

/-- The text of a date. -/
def text (d : Date) : String :=
  String.ofList (yearText d.year ++ '-' :: padded 2 d.month ++ '-' :: padded 2 d.day)

/-! ### Reading -/

/-- The number a run of digits stands for, as long as it and all that come before it fit into a
    signed word of 64 bits. -/
def number (digits : List Char) : Except DateFault Nat :=
  let n := Text.digitsValue digits
  if n < signedLimit then .ok n else .error .outOfRange

/-- A number of at least one digit, and at most `width` if a width is given. -/
def scanNumber (width : Option Nat) (s : List Char) : Except DateFault (Nat × List Char) :=
  match s with
  | [] => .error .tooShort
  | c :: _ =>
    if Text.isAsciiDigit c then do
      let all := s.takeWhile Text.isAsciiDigit
      let digits := match width with
        | some width => all.take width
        | none => all
      return (← number digits, s.drop digits.length)
    else .error .invalid

/-- The hyphen between two numbers. -/
def scanHyphen : List Char → Except DateFault (List Char)
  | [] => .error .tooShort
  | c :: rest => if c = '-' then .ok rest else .error .invalid

/-- The year: with a sign it may have any number of digits, without one at most four. -/
def scanYear (s : List Char) : Except DateFault (Int × List Char) := do
  let (year, rest) ← match Text.trimStart s with
    | '-' :: digits => do
      let (n, rest) ← scanNumber none digits
      pure (-(n : Int), rest)
    | '+' :: digits => do
      let (n, rest) ← scanNumber none digits
      pure ((n : Int), rest)
    | digits => do
      let (n, rest) ← scanNumber (some 4) digits
      pure ((n : Int), rest)
  -- What is read fits into 32 bits; whether a date can hold it is checked with the day.
  if -0x8000_0000 ≤ year ∧ year < 0x8000_0000 then return (year, rest) else throw .outOfRange

/-- A month or a day: at most two digits, and a value between one and the greatest there is. -/
def scanPart (greatest : Nat) (s : List Char) : Except DateFault (Nat × List Char) := do
  let (n, rest) ← scanNumber (some 2) (Text.trimStart s)
  if 1 ≤ n ∧ n ≤ greatest then return (n, rest) else throw .outOfRange

/-- The date a text stands for. Each number is checked when it is read, the day of the calendar
    last. -/
def parse (text : String) : Except DateFault Date := do
  let (year, rest) ← scanYear text.toList
  let rest ← scanHyphen rest
  let (month, rest) ← scanPart 12 rest
  let rest ← scanHyphen rest
  let (day, rest) ← scanPart 31 rest
  if rest.isEmpty then
    -- Month and day are in range by now, but the month may not have that day.
    match of? year month day with
    | some d => return d
    | none => throw .outOfRange
  else throw .tooLong

end Date

end EntityQuery
