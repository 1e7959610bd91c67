namespace EntityQuery

/-!
# Runs of code points

A character class is a short list of runs: code points from a first to a last one in equal steps.
-/

/-- The code points `first`, `first + step`, … up to `last`. -/
structure CodeRun where
  first : Nat
  last : Nat
  step : Nat := 1
deriving DecidableEq, Repr

/-- Membership in a run is decided by the two ends and the remainder of the distance. -/
def CodeRun.contains (run : CodeRun) (code : Nat) : Bool :=
  decide (run.first ≤ code) && decide (code ≤ run.last) && (code - run.first) % run.step == 0

/-- A class given by runs holds a character when one of the runs does. -/
def CodeRun.anyContains (runs : List CodeRun) (c : Char) : Bool :=
  runs.any (·.contains c.toNat)

end EntityQuery
