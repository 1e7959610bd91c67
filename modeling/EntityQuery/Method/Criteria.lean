import EntityQuery.Method.Descriptor
import EntityQuery.Query.Basic
import EntityQuery.Schema.PropertyMatch
import EntityQuery.Schema.Resolution

namespace EntityQuery

/-!
# Derived queries

Criteria are comparisons joined by `And` and `Or`, of which `And` binds tighter. A comparison is a
property and an operator, where no operator means equality; it takes the next argument of the call
unless it is a null test. The order is a list of properties with an optional direction each.
Properties are found by the longest match, so words of operators and joiners can be part of a name.
-/

/-- Why a descriptor does not describe a query. -/
inductive MethodDefect where
  | badPath (defect : PathDefect)
  | unknownSubject
  | badLimit (digits : String) (fault : WholeFault)
  | zeroLimit
  | noMatch (entity : String) (words : List String)
  | unexpectedWord (word : String) (words : List String)
  | danglingJoiner (word : String)
  | unregistered (entity : String)
  | associationOperand (path : Path)
  | emptyOrder
deriving DecidableEq, Repr

/-- The defect in words. Words that are in the way are shown with all that follows them. -/
def MethodDefect.message : MethodDefect → String
  | .badPath defect => defect.message
  | .unknownSubject => "descriptor does not start with a known subject keyword"
  | .badLimit digits fault => s!"invalid row limit '{digits}': {fault.message}"
  | .zeroLimit => "row limit must be greater than zero"
  | .noMatch entity words => s!"no property of {entity} matches '" ++ String.join words ++ "'"
  | .unexpectedWord word words =>
    s!"unexpected '{word}' in '" ++ String.join words ++ "'; expected And, Or or an operator"
  | .danglingJoiner word => s!"dangling '{word}' at the end of the criteria"
  | .unregistered entity => s!"entity '{entity}' is not registered"
  | .associationOperand path =>
    s!"'{path.text}' is an association and can only be tested with IsNull or IsNotNull"
  | .emptyOrder => "OrderBy names no property"

instance : MonadLift (Except PathDefect) (Except MethodDefect) := ⟨Except.mapError .badPath⟩

/-- What a method asks for. -/
structure MethodQuery where
  subject : Subject
  limit : Option Nat
  distinct : Bool
  predicate : Option Predicate
  /-- The arguments of a call in order. -/
  slots : List Slot
  order : SortOrder

namespace MethodQuery

/-! ### Modifiers -/

/-- The limit that the modifiers set: a bare `Top` or `First` means one row. -/
def limitOf (modifiers : List Char) : Except MethodDefect (Option Nat) :=
  match Descriptor.limitDigits? modifiers with
  | none => .ok none
  | some [] => .ok (some 1)
  | some digits =>
    match Whole.parseUnsigned digits with
    | .error fault => .error (.badLimit (String.ofList digits) fault)
    | .ok 0 => .error .zeroLimit
    | .ok n => .ok (some n)

/-! ### Operators -/

/-- The words of each operator; of two that begin alike the longer one comes first. -/
def operatorWords : List (List String × Operator) :=
  [(["Greater", "Than", "Equal"], .greaterThanEqual),
    (["Less", "Than", "Equal"], .lessThanEqual),
    (["Greater", "Than"], .greaterThan),
    (["Less", "Than"], .lessThan),
    (["Not", "Null"], .isNotNull),
    (["Null"], .isNull),
    (["After"], .greaterThan),
    (["Before"], .lessThan),
    (["Equals"], .equals),
    (["Like"], .like),
    (["Not"], .notEquals),
    (["In"], .isIn)]

/-- The operator that words begin with and what follows it; nothing at all means equality. -/
def bareOperator (words : List String) : Operator × List String :=
  (operatorWords.findSome? fun (spelling, operator) =>
    (spelling.isPrefixOf? words).map fun rest => (operator, rest)).getD (.equals, words)

/-- An operator may begin with `Is`. -/
def takeOperator : List String → Operator × List String
  | "Is" :: rest => bareOperator rest
  | words => bareOperator words

/-- What stands behind a prefix is not longer than the whole. -/
theorem length_le_of_isPrefixOf? {front words rest : List String}
    (h : front.isPrefixOf? words = some rest) : rest.length ≤ words.length := by
  -- Both lists lose a word in each step, as long as the words agree.
  induction front generalizing words with
  | nil =>
    have h : some words = some rest := h
    simp [Option.some.inj h]
  | cons w ws ih =>
    cases words with
    | nil =>
      have h : (none : Option (List String)) = some rest := h
      simp at h
    | cons x xs =>
      have h : (if w == x then ws.isPrefixOf? xs else none) = some rest := h
      rw [Option.ite_none_right_eq_some] at h
      have := ih h.2
      simp; omega

/-- Taking an operator leaves no more words than there were. -/
theorem length_bareOperator_le (words : List String) :
    (bareOperator words).2.length ≤ words.length := by
  unfold bareOperator
  cases h : operatorWords.findSome? fun (spelling, operator) =>
      (spelling.isPrefixOf? words).map fun rest => (operator, rest) with
  | none => simp
  | some found =>
    obtain ⟨⟨spelling, operator⟩, _, hf⟩ := List.exists_of_findSome?_eq_some h
    obtain ⟨rest, hr, rfl⟩ := Option.map_eq_some_iff.1 hf
    exact length_le_of_isPrefixOf? hr

/-- So does taking one with `Is` in front of it. -/
theorem length_takeOperator_le (words : List String) :
    (takeOperator words).2.length ≤ words.length := by
  unfold takeOperator
  split
  · have := length_bareOperator_le ‹List String›
    simp; omega
  · exact length_bareOperator_le words

/-! ### Criteria -/

/-- An association can only be compared through its foreign key, and only with null. -/
def checkComparison (schema : Schema) (entity : Entity) (path : Path) (operator : Operator) :
    Except MethodDefect Unit := do
  match schema.entity? entity.name with
  | none => throw (.unregistered entity.name)
  | some root =>
    let r ← schema.resolve root path
    match r.terminal with
    | .field _ => return ()
    | .association a =>
      if a.isToOne && operator.arity == 0 then return () else throw (.associationOperand path)

/-- The comparison of a property, which takes the given slot if it takes any. -/
def comparison (path : Path) (operator : Operator) (slot : Nat) : Predicate :=
  .comparison path operator (if operator.arity = 1 then .slot ⟨slot, none⟩ else .none)

/-- A further comparison at the front of the first group. -/
def joinFirst (p : Predicate) : List (List Predicate) → List (List Predicate)
  | [] => [[p]]
  | group :: groups => (p :: group) :: groups

/-- The comparisons of the criteria, grouped at each `Or`; `slot` is the next slot to take. -/
def groups (schema : Schema) (entity : Entity) (slot : Nat) (words : List String) :
    Except MethodDefect (List (List Predicate)) :=
  match schema.matchProperty entity words with
  | none => .error (.noMatch entity.name words)
  | some (path, used) => do
    let operator := (takeOperator (words.drop used)).1
    checkComparison schema entity path operator
    let p := comparison path operator slot
    -- The operator has taken its words, so each joiner stands before fewer of them than there were.
    match _h : (takeOperator (words.drop used)).2 with
    | [] => return [[p]]
    | joiner :: more =>
      if joiner ≠ "And" ∧ joiner ≠ "Or" then throw (.unexpectedWord joiner (joiner :: more))
      else if more.isEmpty then throw (.danglingJoiner joiner)
      else
        let others ← groups schema entity (slot + operator.arity) more
        return if joiner = "And" then joinFirst p others else [p] :: others
termination_by words.length
decreasing_by
  -- At least the joiner is gone: that the property used a word is not needed here.
  have h := length_takeOperator_le (words.drop used)
  rw [_h, List.length_drop, List.length_cons] at h
  omega

/-- The predicate of the criteria: the groups are conjunctions, any of which may hold. -/
def predicateOf (schema : Schema) (entity : Entity) (words : List String) :
    Except MethodDefect (Option Predicate) := do
  if words.isEmpty then return none
  else return Predicate.any ((← groups schema entity 0 words).filterMap Predicate.all)

/-! ### Order -/

/-- The direction that words begin with and what follows it. -/
def takeDirection : List String → Direction × List String
  | "Desc" :: rest => (.descending, rest)
  | "Asc" :: rest => (.ascending, rest)
  | words => (.ascending, words)

/-- And so does taking a direction. -/
theorem length_takeDirection_le (words : List String) :
    (takeDirection words).2.length ≤ words.length := by
  unfold takeDirection
  split <;> simp

/-- The directives of a list of words. -/
def directives (schema : Schema) (entity : Entity) (words : List String) :
    Except MethodDefect SortOrder :=
  if words.isEmpty then .ok []
  else
    match _h : schema.matchProperty entity words with
    | none => .error (.noMatch entity.name words)
    | some (path, used) => do
      let direction := (takeDirection (words.drop used)).1
      return ⟨path, direction⟩ :: (← directives schema entity (takeDirection (words.drop used)).2)
termination_by words.length
decreasing_by
  have h := length_takeDirection_le (words.drop used)
  -- A direction may be missing, but a property that is found has used a word.
  have := schema.matchProperty_pos _h
  rw [List.length_drop] at h
  omega

/-- The order that is asked for, which then names at least one property. -/
def orderOf (schema : Schema) (entity : Entity) (words : List String) : Except MethodDefect SortOrder :=
  if words.isEmpty then .error .emptyOrder else directives schema entity words

/-- The query that a descriptor describes. -/
def parse (schema : Schema) (entity : Entity) (text : String) : Except MethodDefect MethodQuery := do
  match Descriptor.parse? text with
  | none => throw .unknownSubject
  | some d =>
    let limit ← limitOf d.modifiers
    let predicate ← predicateOf schema entity (Text.words (String.ofList d.criteria))
    let order ← match d.order with
      | some order => orderOf schema entity (Text.words (String.ofList order))
      | none => pure []
    -- The slots are read off the predicate: they are numbered in the order of its tests.
    let slots := (predicate.map Predicate.slots).getD []
    return ⟨d.subject, limit, d.isDistinct, predicate, slots, order⟩

end MethodQuery

end EntityQuery
