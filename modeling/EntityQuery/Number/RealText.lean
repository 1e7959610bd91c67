import EntityQuery.Number.Shortest

namespace EntityQuery

/-!
# Real numbers as text

A form says how the shortest digits of a number are laid out: which numbers are written with an
exponent, whether a whole number keeps a point, and which of two equally near decimals is taken.
-/

/-- How real numbers are written. The bounds are powers of ten of the first digit; outside of them
    an exponent is written. -/
structure RealForm where
  leastPlain : Option Int
  greatestPlain : Option Int
  keepsPoint : Bool
  /-- Whether an exponent that is not negative has a plus sign. -/
  signsExponent : Bool
  tie : DecimalTie
deriving DecidableEq, Repr

namespace RealForm

/-- Values on their own: all digits are written, and a whole number has no point. -/
def plain : RealForm := ⟨none, none, false, false, .greater⟩

/-- Values inside messages: between `0.0001` and `10 ^ 16` without an exponent. -/
def inMessages : RealForm := ⟨some (-4), some 15, true, false, .greater⟩

/-- Values inside documents: from `0.00001` up to `10 ^ 16` without an exponent. -/
def inDocuments : RealForm := ⟨some (-5), some 15, true, true, .even⟩

/-- Whether a number whose first digit stands at this power of ten is written without an exponent. -/
def isPlain (form : RealForm) (exponent : Int) : Bool :=
  form.leastPlain.all (· ≤ exponent) && form.greatestPlain.all (exponent ≤ ·)

/-- Digits around the point, padded with zeros on the side where they do not reach it. -/
def layOut (form : RealForm) (digits : List Char) (exponent : Int) : List Char :=
  if exponent < 0 then
    '0' :: '.' :: (List.replicate (-exponent - 1).toNat '0' ++ digits)
  else
    let whole := exponent.toNat + 1
    if digits.length ≤ whole then
      digits ++ List.replicate (whole - digits.length) '0' ++ (if form.keepsPoint then ['.', '0'] else [])
    else digits.take whole ++ '.' :: digits.drop whole

/-- One digit, the point and the other digits if there are any, and the exponent. -/
def withExponent (form : RealForm) (digits : List Char) (exponent : Int) : List Char :=
  let sign := if 0 ≤ exponent ∧ form.signsExponent then ['+'] else []
  digits.take 1 ++ (if digits.length ≤ 1 then [] else '.' :: digits.drop 1)
    ++ 'e' :: (sign ++ (toString exponent).toList)

/-- The text of a magnitude. -/
def writeMagnitude (form : RealForm) : Magnitude → List Char
  | .notANumber => "NaN".toList
  | .infinite => "inf".toList
  | .finite mantissa scale =>
    if mantissa = 0 then form.layOut ['0'] 0
    else
      let d := Decimal.shortest form.tie mantissa scale
      if form.isPlain d.exponent then form.layOut d.digits d.exponent
      else form.withExponent d.digits d.exponent

/-- The text of a number. Only what is not a number has no sign. -/
def write (form : RealForm) (x : Binary64) : String :=
  let text := form.writeMagnitude x.magnitude
  String.ofList (if x.isNegative && !x.isNaN then '-' :: text else text)

end RealForm

end EntityQuery
