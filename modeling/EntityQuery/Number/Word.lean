namespace EntityQuery

/-!
# Words

Which whole numbers fit into words of 64 bits, with a sign and without one.
-/

/-- The least natural number that does not fit into a word without a sign. -/
def wordLimit : Nat := 0x1_0000_0000_0000_0000

/-- The least natural number that does not fit into a word with a sign. -/
def signedLimit : Nat := 0x8000_0000_0000_0000

/-- The integer as a word with a sign, if it fits. -/
def signedWord? (n : Int) : Option Int64 :=
  if -(signedLimit : Int) ≤ n ∧ n < signedLimit then some (Int64.ofInt n) else none

end EntityQuery
