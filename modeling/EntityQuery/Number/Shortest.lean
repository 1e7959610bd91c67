import EntityQuery.Number.Binary64

namespace EntityQuery

/-!
# The shortest decimal

Every real number within half a place of a binary number is read as that number. Among the decimals
that are read as it, the ones with the fewest digits are searched: on each grid of decimals only the
two neighbours of the value have to be tested.
-/

/-- The decimal `coefficient * 10 ^ scale`. -/
structure Decimal where
  coefficient : Nat
  scale : Int
deriving DecidableEq, Repr

/-- Which of two equally near decimals is taken. -/
inductive DecimalTie where
  | greater
  | even
deriving DecidableEq, Repr

namespace Decimal

/-- The digits of the coefficient. -/
def digits (d : Decimal) : List Char := Nat.toDigits 10 d.coefficient

/-- The power of ten at which the first digit stands. -/
def exponent (d : Decimal) : Int := d.scale + d.digits.length - 1

/-- The same decimal without zeros at the end of its digits; at most `n` are taken away. -/
def strip : Nat → Decimal → Decimal
  | 0, d => d
  | n + 1, d =>
    if d.coefficient % 10 = 0 then strip n ⟨d.coefficient / 10, d.scale + 1⟩ else d

/-- The power of ten at which the first digit of a positive quotient stands. -/
def leadingExponent (num den : Nat) : Int :=
  if den ≤ num then (Binary64.digitCount (num / den) : Int) - 1
  else
    let places := Binary64.digitCount (den / num)
    if den ≤ num * Nat.pow 10 (places - 1) then -((places : Int) - 1) else -(places : Int)

/-- The decimals that are read as `mantissa * 2 ^ scale`, in quarters of a last place: half a place
    on both sides, but a quarter below a power of two, where the numbers lie closer together. -/
structure Span where
  value : Nat
  least : Nat
  greatest : Nat
  closed : Bool

/-- The ends belong to the span when the fraction is even, because ties are read as even. -/
def spanOf (mantissa : Nat) (scale : Int) : Span where
  value := 4 * mantissa
  least := if mantissa = binade ∧ leastScale < scale then 4 * mantissa - 1 else 4 * mantissa - 2
  greatest := 4 * mantissa + 2
  closed := mantissa % 2 == 0

/-- The decimal with `n` digits that is read as the number and lies nearest to it, if there is
    one. -/
def withDigits (tie : DecimalTie) (mantissa : Nat) (scale : Int) (n : Nat) : Option Decimal :=
  let span := spanOf mantissa scale
  -- The value is counted in quarters, so that the ends of its span are whole numbers of them.
  let quarter := scale - 2
  let up := 1 <<< quarter.toNat
  let down := 1 <<< (-quarter).toNat
  -- The last of `n` digits stands here; its multiples are the grid.
  let grid := leadingExponent (span.value * up) down - ((n : Int) - 1)
  let num := up * Nat.pow 10 (-grid).toNat
  let den := down * Nat.pow 10 grid.toNat
  let low := span.value * num / den
  let above (a b : Nat) : Bool := if span.closed then decide (b ≤ a) else decide (b < a)
  -- Only the neighbours on the grid can be nearest, and each of them may be out of the span.
  let lowReads := above (low * den) (span.least * num)
  let highReads := above (span.greatest * num) ((low + 1) * den)
  let twice := 2 * (span.value * num - low * den)
  let nearerLow :=
    if twice = den then (match tie with | .greater => false | .even => low % 2 == 0)
    else decide (twice < den)
  match lowReads, highReads with
  | true, true => some ⟨if nearerLow then low else low + 1, grid⟩
  | true, false => some ⟨low, grid⟩
  | false, true => some ⟨low + 1, grid⟩
  | false, false => none

/-- The shortest decimal that is read as the positive number `mantissa * 2 ^ scale`; seventeen
    digits are always enough. -/
def shortest (tie : DecimalTie) (mantissa : Nat) (scale : Int) : Decimal :=
  -- The fewest digits come first, so the first that is found is the shortest.
  match (List.range 17).findSome? fun n => withDigits tie mantissa scale (n + 1) with
  | some d => strip 20 d
  | none => ⟨0, 0⟩

end Decimal

end EntityQuery
