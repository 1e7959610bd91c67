import EntityQuery.Number.Binary64
import EntityQuery.Text.Reader

namespace EntityQuery

/-!
# Reading real numbers

Digits with a point among, before or behind them, and an exponent; there has to be a digit outside
of the exponent. Infinity and what is not a number have names, which are read in any case.
-/

namespace RealReader

open Text
open Text.Reader

/-- A sign, if there is one; whether it is a minus sign. -/
def sign : Reader Bool := do
  match ← optional (char fun c => c == '+' || c == '-') with
  | some c => return c == '-'
  | none => return false

/-- An exponent: nothing counts as zero. -/
def exponent : Reader Int := do
  match ← optional (char fun c => c == 'e' || c == 'E') with
  | none => return 0
  | some _ =>
    let negative ← sign
    let n : Int := digitsValue (← run1 isAsciiDigit)
    return if negative then -n else n

/-- A number in digits, without its sign. -/
def decimal (negative : Bool) : Reader Binary64 := do
  let whole ← run isAsciiDigit
  let part ← (do let _ ← char (· == '.'); run isAsciiDigit) <|> pure []
  if whole.isEmpty && part.isEmpty then failure
  let exponent ← exponent
  return Binary64.ofDecimal negative (digitsValue (whole ++ part)) (exponent - part.length)

/-- The numbers that have names. -/
def named? (negative : Bool) (name : List Char) : Option Binary64 :=
  match String.ofList (name.map Char.toLower) with
  | "inf" | "infinity" => some (Binary64.infinity negative)
  | "nan" => some Binary64.notANumber
  | _ => none

/-- A number with or without a sign, in digits or by its name. -/
def real : Reader Binary64 := do
  let negative ← sign
  decimal negative <|> do
    let name ← run1 Char.isAlpha
    match named? negative name with
    | some x => return x
    | none => failure

end RealReader

/-- The number a text stands for. -/
def Binary64.parse? (text : String) : Option Binary64 := RealReader.real.whole text.toList

end EntityQuery
