import EntityQuery.Proofs.Outcome
import EntityQuery.Sql.Condition
import EntityQuery.Value.Stored

namespace EntityQuery

/-!
# What conditions mean

Conditions are true, false or unknown of the values that they are given.  What an operator makes of
a value is left open (`Meaning`), as long as no comparison holds of a missing value; the tests for
null are what they are.

* `eval_ofPredicate`: a predicate and its condition mean the same, wherever the columns hold what the
  paths read;
* `ne_null_of_eval`: a predicate that holds found every value that it cannot do without.
-/

/-- What a condition is of some values; it may be unknown where a value is missing. -/
inductive Truth where
  | yes
  | no
  | unknown
deriving DecidableEq, Repr

namespace Truth

/-- A boolean as one of the three truth values. -/
def ofBool (b : Bool) : Truth := if b then yes else no

/-- The conjunction of three-valued logic: a part that fails decides. -/
def and : Truth → Truth → Truth
  | no, _ | _, no => no
  | yes, yes => yes
  | _, _ => unknown

/-- The disjunction: a part that holds decides. -/
def or : Truth → Truth → Truth
  | yes, _ | _, yes => yes
  | no, no => no
  | _, _ => unknown

/-- A conjunction holds exactly if both of its parts do. -/
theorem and_eq_yes_iff {a b : Truth} : a.and b = yes ↔ a = yes ∧ b = yes := by
  cases a <;> cases b <;> decide

end Truth

/-- What the operators make of a value and of what it is compared with.  Slots stand for the values
    of one call. -/
structure Meaning where
  compare : Operator → Stored → Term → Truth
  member : Stored → TermList → Truth
  compare_null : ∀ operator term, compare operator .null term ≠ .yes
  member_null : ∀ terms, member .null terms ≠ .yes

/-- The value to compare with. -/
def Operand.term? : Operand → Option Term
  | .slot s => some (.slot s)
  | .literal value => some (.value value)
  | .none => Option.none

/-- The values to look among: a literal that is no list is the only one. -/
def Operand.terms? : Operand → Option TermList
  | .slot s => some (.slot s)
  | .literal (.list items) => some (.values items)
  | .literal value => some (.values [value])
  | .none => Option.none

namespace Meaning

variable (M : Meaning)

/-- What a comparison is of a value; without its operand it is unknown. -/
def test (operator : Operator) (operand : Operand) (value : Stored) : Truth :=
  match operator with
  | .isNull => .ofBool (value = .null)
  | .isNotNull => .ofBool (value ≠ .null)
  | .isIn => (operand.terms?.map (M.member value)).getD .unknown
  | operator => (operand.term?.map (M.compare operator value)).getD .unknown

/-- Only the test for null holds of a missing value. -/
theorem test_null {operator : Operator} (h : operator.rejectsNull = true) (operand : Operand) :
    M.test operator operand .null ≠ .yes := by
  have hmember : (operand.terms?.map (M.member .null)).getD .unknown ≠ .yes := by
    cases operand.terms? with
    | none => exact nofun
    | some terms => exact M.member_null terms
  have hcompare : (operand.term?.map (M.compare operator .null)).getD .unknown ≠ .yes := by
    cases operand.term? with
    | none => exact nofun
    | some term => exact M.compare_null operator term
  -- Only the two tests for null look at null itself; the others compare, and no comparison with null holds.
  cases operator with
  | isNull => cases h
  | isNotNull => exact nofun
  | isIn => exact hmember
  | _ => exact hcompare

end Meaning

/-- What a condition is of the values of its columns. -/
def Condition.eval {κ : Type} (M : Meaning) (value : κ → Stored) : Condition κ → Truth
  | .isNull column => .ofBool (value column = .null)
  | .isNotNull column => .ofBool (value column ≠ .null)
  | .compare column operator term => M.compare operator (value column) term
  | .member column terms => M.member (value column) terms
  | .and l r => (l.eval M value).and (r.eval M value)
  | .or l r => (l.eval M value).or (r.eval M value)

/-- What a predicate is of the values that its paths read. -/
def Predicate.eval (M : Meaning) (read : Path → Stored) : Predicate → Truth
  | .comparison path operator operand => M.test operator operand (read path)
  | .and l r => (l.eval M read).and (r.eval M read)
  | .or l r => (l.eval M read).or (r.eval M read)

variable {M : Meaning} {ε κ : Type}

/-! ### Conditions of predicates -/

/-- A compiled comparison means what the operator tests. -/
theorem eval_ofComparison? {column : κ} {operator : Operator} {operand : Operand}
    {condition : Condition κ} (h : Condition.ofComparison? column operator operand = some condition)
    (value : κ → Stored) : condition.eval M value = M.test operator operand (value column) := by
  unfold Condition.ofComparison? at h
  split at h
  case h_1 | h_2 | h_3 | h_4 => cases h; rfl
  case h_5 literal hscalar =>
    -- A literal that is no list is looked for among itself alone.
    cases h
    cases literal with
    | list items => exact absurd rfl (hscalar items)
    | _ => rfl
  case h_6 | h_7 => cases h; cases operator <;> first | rfl | contradiction
  case h_8 => cases h

/-- **Predicates and their conditions mean the same** where each column holds what its path reads. -/
theorem eval_ofPredicate {column : Path → Except ε κ} {noOperand : Path → Operator → ε}
    {p : Predicate} {condition : Condition κ}
    (h : Condition.ofPredicate column noOperand p = .ok condition) {value : κ → Stored}
    {read : Path → Stored}
    (hread : ∀ path ∈ p.paths, ∀ c, column path = .ok c → value c = read path) :
    condition.eval M value = p.eval M read := by
  induction p generalizing condition with
  | comparison path operator operand =>
    rw [Condition.ofPredicate] at h
    obtain ⟨c, hc, h⟩ := bind_eq_ok_iff.1 h
    split at h
    · rename_i made hmade
      obtain rfl := pure_eq_ok_iff.1 h
      rw [eval_ofComparison? hmade, hread path (List.mem_singleton_self path) c hc]
      rfl
    · exact absurd h throw_ne_ok
  -- Both connectives are compiled side by side.
  | and l r ihl ihr | or l r ihl ihr =>
    rw [Condition.ofPredicate] at h
    simp only [bind_eq_ok_iff, pure_eq_ok_iff] at h
    obtain ⟨left, hleft, right, hright, rfl⟩ := h
    rw [Predicate.paths, List.forall_mem_append] at hread
    rw [Condition.eval, Predicate.eval, ihl hleft hread.1, ihr hright hread.2]

/-! ### Values that a predicate cannot do without -/

/-- Below a disjunction no comparison has to hold. -/
theorem required_of_mem_comparisonsWhen {p : Predicate} {required : Bool} {c : Predicate.Comparison}
    (hc : c ∈ p.comparisonsWhen required) (h : c.required = true) : required = true := by
  induction p generalizing required with
  | comparison path operator operand =>
    obtain rfl := List.mem_singleton.1 hc
    exact h
  | and l r ihl ihr => exact (List.mem_append.1 hc).elim ihl ihr
  | or l r ihl ihr =>
    have : false = true := (List.mem_append.1 hc).elim ihl ihr
    cases this

/-- A predicate that holds found every value that it cannot do without. -/
theorem ne_null_of_eval {p : Predicate} {read : Path → Stored} (h : p.eval M read = .yes)
    {c : Predicate.Comparison} (hc : c ∈ p.comparisons) (hrequired : c.required = true)
    (hrejects : c.operator.rejectsNull = true) : read c.path ≠ .null := by
  unfold Predicate.comparisons at hc
  induction p with
  | comparison path operator operand =>
    obtain rfl := List.mem_singleton.1 hc
    intro hnull
    rw [Predicate.eval, hnull] at h
    exact M.test_null hrejects operand h
  | and l r ihl ihr =>
    obtain ⟨hl, hr⟩ := Truth.and_eq_yes_iff.1 h
    rcases List.mem_append.1 hc with hc | hc
    · exact ihl hl hc
    · exact ihr hr hc
  | or l r =>
    -- Neither side has to hold, so it cannot be one of their comparisons.
    rcases List.mem_append.1 hc with hc | hc
    · exact absurd (required_of_mem_comparisonsWhen hc hrequired) Bool.false_ne_true
    · exact absurd (required_of_mem_comparisonsWhen hc hrequired) Bool.false_ne_true

/-! ### A sample meaning -/

namespace Sample

/-- How an operator compares integers. -/
def compareIntegers (a b : Int64) : Operator → Bool
  | .equals => a = b
  | .notEquals => a ≠ b
  | .greaterThan => b < a
  | .greaterThanEqual => b ≤ a
  | .lessThan => a < b
  | .lessThanEqual => a ≤ b
  | _ => false

/-- Whether a value is a given integer. -/
def isInteger (a : Int64) : Value → Bool
  | .integer b => a = b
  | _ => false

/-- Integers are compared with integers, and nothing is known of anything else. -/
def meaning : Meaning where
  compare
    | operator, .integer a, .value (.integer b) => .ofBool (compareIntegers a b operator)
    | _, _, _ => .unknown
  member
    | .integer a, .values items => .ofBool (items.any (isInteger a))
    | _, _ => .unknown
  compare_null _ _ := nofun
  member_null _ := nofun

end Sample

end EntityQuery
