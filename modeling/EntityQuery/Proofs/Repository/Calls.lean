import EntityQuery.Proofs.Outcome
import EntityQuery.Repository.Call

namespace EntityQuery

/-!
# Calls of declared methods

A declared method is called in one of seven shapes.  What holds of every call is said of
`Repository.call`, which takes the shape as an argument.  The method is found under its name, for the shape
that it was prepared with.
-/

/-- What a call answers with. -/
inductive Response where
  | one (result : Option Received)
  | list (results : List Received)
  | page (page : Page Received)
  | slice (slice : Slice Received)
  | count (rows : Nat)
  | existence (found : Bool)
  | change (outcome : BulkOutcome)

/-- What comes after a step that succeeds without looking at the exchange. -/
theorem Run.ok_bind {σ α β : Type} {x : Except Error α} {a : α} (h : x = .ok a) (f : α → Run σ β) :
    ((liftM x : Run σ α) >>= f) = f a := by
  subst h
  rfl

namespace Repository

variable {σ : Type}

/-- The call of a declared method in a shape. -/
def call (repository : Repository) (store : Store σ) (name : String) (args : CallArguments)
    (expected : Expected) : Shape → Run σ Response
  | .single => return .one (← repository.one store name args expected)
  | .list => return .list (← repository.list store name args expected)
  | .page => return .page (← repository.page store name args expected)
  | .slice => return .slice (← repository.slice store name args expected)
  | .count => return .count (← repository.count store name args)
  | .existence => return .existence (← repository.exists? store name args)
  | .bulk => return .change (← repository.execute store name args)

variable {repository : Repository} {name : String} {args : CallArguments} {shape : Shape}
variable {d : Definition}

/-! ### What is called -/

/-- A method is found under its name, for its own shape only. -/
theorem definition_of_lookup (hfound : repository.definitions.lookup name = some d) (shape : Shape) :
    repository.definition name shape =
      if d.shape = shape then .ok d else .error (.definition name (.otherShape d.shape shape)) := by
  unfold definition
  rw [hfound]

/-- A definition that is found is the prepared one, and has the shape of the call. -/
theorem eq_of_definition {found : Definition} (hlookup : repository.definitions.lookup name = some found)
    (h : repository.definition name shape = .ok d) : d = found ∧ found.shape = shape := by
  rw [definition_of_lookup hlookup] at h
  split at h
  · rename_i hshape
    cases h
    exact ⟨rfl, hshape⟩
  · cases h

/-- The definition a call uses is the one under its name. -/
theorem lookup_of_definition (h : repository.definition name shape = .ok d) :
    repository.definitions.lookup name = some d := by
  cases hlookup : repository.definitions.lookup name with
  | none =>
    unfold definition at h
    rw [hlookup] at h
    cases h
  | some found => rw [(eq_of_definition hlookup h).1]

/-- What was selected for a call is its definition and the form compiled for it. -/
theorem select_ok_iff {found : Definition × Compiled} :
    repository.select name args shape = .ok found ↔
      repository.definition name shape = .ok found.1 ∧
        repository.compiledFor name found.1 args = .ok found.2 := by
  unfold select
  simp only [bind_eq_ok_iff, pure_eq_ok_iff]
  constructor
  · rintro ⟨d, hd, compiled, hcompiled, rfl⟩
    exact ⟨hd, hcompiled⟩
  · rintro ⟨hd, hcompiled⟩
    exact ⟨_, hd, _, hcompiled, rfl⟩

/-- A call that does not find its definition fails at once, in every shape. -/
theorem call_of_definition_error {fault : Error}
    (h : repository.definition name shape = .error fault) (store : Store σ) (args : CallArguments)
    (expected : Expected) :
    repository.call store name args expected shape = liftM (.error fault : Except Error Response) := by
  cases shape with
  | single | list | count | existence =>
    simp only [call, one, list, count, exists?, select, h]
    rfl
  | page | slice | bulk =>
    simp only [call, page, slice, execute, h]
    rfl

end Repository

end EntityQuery
