import EntityQuery.Number.Word

namespace EntityQuery

/-!
# Binary real numbers

Real numbers of 64 bits, held as their bits: one for the sign, eleven for the exponent and 52 for
the fraction. All arithmetic on them here is exact, over naturals and integers; a value that has
to be rounded goes to the nearest number, and a tie to the one with an even fraction.
-/

/-- A real number by its bits. Two of them are equal when all their bits are. -/
structure Binary64 where
  bits : UInt64
deriving DecidableEq, Repr, Inhabited

/-- The least exponent of a last place. -/
def leastScale : Int := -1074

/-- The number of values between two neighbouring powers of two. -/
def binade : Nat := 0x10_0000_0000_0000

/-- What a number is without its sign: a finite one is a whole number of units `2 ^ scale`. -/
inductive Magnitude where
  | notANumber
  | infinite
  | finite (mantissa : Nat) (scale : Int)
deriving DecidableEq, Repr

namespace Binary64

/-- Whether the sign is set. Zero has a sign too, and so has what is not a number. -/
def isNegative (x : Binary64) : Bool := decide (signedLimit ≤ x.bits.toNat)

/-- The exponent field. -/
def exponentField (x : Binary64) : Nat := x.bits.toNat / binade % 2048

/-- The fraction field. -/
def fraction (x : Binary64) : Nat := x.bits.toNat % binade

/-- The exponent field tells which kind of number this is; the leading one of all but the smallest
    numbers is not stored. -/
def magnitude (x : Binary64) : Magnitude :=
  if x.exponentField = 2047 then
    if x.fraction = 0 then .infinite else .notANumber
  else if x.exponentField = 0 then .finite x.fraction leastScale
  else .finite (binade + x.fraction) (leastScale + (x.exponentField - 1))

/-- Whether this is no number at all. -/
def isNaN (x : Binary64) : Bool := x.magnitude == .notANumber

/-- Whether this is a number with a value. -/
def isFinite (x : Binary64) : Bool :=
  match x.magnitude with
  | .finite _ _ => true
  | _ => false

/-- The magnitude in the low 63 bits and the sign above them. -/
def ofParts (negative : Bool) (low : Nat) : Binary64 :=
  ⟨UInt64.ofNat (if negative then signedLimit + low else low)⟩

/-- The low bits of the infinities. -/
def infinityBits : Nat := 2047 * binade

/-- Beyond all numbers, on either side. -/
def infinity (negative : Bool) : Binary64 := ofParts negative infinityBits

/-- The canonical one of those that are no number: only the first place of its fraction is set. -/
def notANumber : Binary64 := ofParts false (infinityBits + binade / 2)

/-- The quotient of two naturals rounded to the nearest whole number, a tie to the even one. -/
def roundQuotient (num den : Nat) : Nat :=
  let low := num / den
  let twice := 2 * (num % den)
  if twice < den then low
  else if den < twice then low + 1
  else low + low % 2

/-- Numerator and denominator of a quotient after division by a power of two. -/
def scaleDown (num den : Nat) (scale : Int) : Nat × Nat :=
  (num <<< (-scale).toNat, den <<< scale.toNat)

/-- The scale at which a positive quotient has 53 digits, or the least one. -/
def scaleFor (num den : Nat) : Int :=
  -- The logarithms tell the quotient up to a factor of two, so the guess is right or one too small.
  let guess : Int := (Nat.log2 num : Int) - Nat.log2 den - 53
  let (n, d) := scaleDown num den guess
  max leastScale (if n / d < 2 * binade then guess else guess + 1)

/-- The number nearest to `num / den`. A mantissa that rounds up to the next power of two carries
    into the exponent by itself. -/
def ofRatio (negative : Bool) (num den : Nat) : Binary64 :=
  if num = 0 then ofParts negative 0
  else
    let scale := scaleFor num den
    let (n, d) := scaleDown num den scale
    let mantissa := roundQuotient n d
    -- The leading one of the mantissa adds one to the exponent field, which is why a number without one
    -- gets the field zero.
    ofParts negative (min infinityBits (mantissa + (scale - leastScale).toNat * binade))

/-- The number nearest to an integer. -/
def ofInt (n : Int) : Binary64 := ofRatio (n < 0) n.natAbs 1

/-- How many decimal digits a natural number has. -/
def digitCount (n : Nat) : Nat := (Nat.toDigits 10 n).length

/-- The number nearest to `coefficient * 10 ^ scale`. Far out of the range of finite numbers the
    power of ten is not computed. -/
def ofDecimal (negative : Bool) (coefficient : Nat) (scale : Int) : Binary64 :=
  let size : Int := digitCount coefficient + scale
  if coefficient = 0 || size < -400 then ofParts negative 0
  else if size > 400 then infinity negative
  else ofRatio negative (coefficient * Nat.pow 10 scale.toNat) (Nat.pow 10 (-scale).toNat)

/-- The nearest whole number, a tie away from zero; nothing for what is not finite. -/
def round? (x : Binary64) : Option Int :=
  match x.magnitude with
  | .finite m scale =>
    -- Twice the value, so that halves are told apart from what lies below them.
    let twice := (2 * m) <<< scale.toNat >>> (-scale).toNat
    let n : Int := (twice + 1) / 2
    some (if x.isNegative then -n else n)
  | _ => none

/-- The whole number this is, if it is one. -/
def whole? (x : Binary64) : Option Int :=
  match x.magnitude with
  | .finite m scale =>
    let num := m <<< scale.toNat
    let den := 1 <<< (-scale).toNat
    if num % den = 0 then
      let n : Int := (num / den : Nat)
      some (if x.isNegative then -n else n)
    else none
  | _ => none

end Binary64

end EntityQuery
