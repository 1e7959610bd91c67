import EntityQuery.Number.Word
import EntityQuery.Text.DecimalDigit

namespace EntityQuery

/-!
# Whole numbers as text

Numbers that have to fit into words of 64 bits. The first character at which reading fails decides
which fault there is.
-/

/-- Why digits are no number that fits. -/
inductive WholeFault where
  | invalidDigit
  | tooLarge
  | tooSmall
deriving DecidableEq, Repr

/-- The fault in words. -/
def WholeFault.message : WholeFault → String
  | .invalidDigit => "invalid digit found in string"
  | .tooLarge => "number too large to fit in target type"
  | .tooSmall => "number too small to fit in target type"

namespace Whole

/-- One more digit behind a number that stays below `limit`. -/
def addDigit (limit : Nat) (overflow : WholeFault) (n : Nat) (c : Char) : Except WholeFault Nat :=
  if !Text.isAsciiDigit c then .error .invalidDigit
  else
    let next := 10 * n + Text.digitValue c
    if next < limit then .ok next else .error overflow

/-- An unsigned number. -/
def parseUnsigned (digits : List Char) : Except WholeFault Nat :=
  digits.foldlM (addDigit wordLimit .tooLarge) 0

/-- A signed number; a minus sign may stand before it. -/
def parseSigned : List Char → Except WholeFault Int64
  | '-' :: digits => do
    return Int64.ofInt (-(← digits.foldlM (addDigit (signedLimit + 1) .tooSmall) 0))
  | digits => do
    return Int64.ofNat (← digits.foldlM (addDigit signedLimit .tooLarge) 0)

/-! ### Numbers that are a text of their own -/

/-- An unsigned number of at least one digit; a plus sign may stand before it. -/
def unsigned? (text : List Char) : Option Nat :=
  let digits := if text.head? = some '+' then text.tail else text
  if digits.isEmpty then none else (parseUnsigned digits).toOption

/-- A signed number of at least one digit; either sign may stand before it. -/
def signed? : List Char → Option Int64
  | ['-'] => none
  | '-' :: digits => (parseSigned ('-' :: digits)).toOption
  | text => (unsigned? text).bind fun n => signedWord? n

end Whole

end EntityQuery
