namespace EntityQuery

/-!
# Failures of a store

What a store reports when it does not carry out a statement. Failures reach the caller as they are.
-/

/-- What kind of trouble a store is in. -/
inductive FailureKind where
  | connection
  | constraint
  | lockTimeout
  | statement
deriving DecidableEq, Repr

/-- A failure as the caller gets to know it: its kind, and the words of the store. -/
structure StoreFailure where
  kind : FailureKind
  reason : String
deriving DecidableEq, Repr

namespace StoreFailure

/-- The kind of a result code; its low byte tells the class: busy and locked, violated constraints,
    and a store that cannot be reached. -/
def kindOfCode (code : Int) : FailureKind :=
  match code % 256 with
  | 5 | 6 => .lockTimeout
  | 19 => .constraint
  | 3 | 10 | 14 | 26 => .connection
  | _ => .statement

/-- The failure that a result code stands for. -/
def ofCode (code : Int) (reason : String) : StoreFailure := ⟨kindOfCode code, reason⟩

/-- The text of a failure, with its kind in front. -/
def message (failure : StoreFailure) : String :=
  (match failure.kind with
    | .connection => "connection failure: "
    | .constraint => "constraint violation: "
    | .lockTimeout => "lock timeout: "
    | .statement => "statement failure: ") ++ failure.reason

end StoreFailure

/-- What a connection reports: the result code of the store, unless the statement never reached it,
    and the reason in words. -/
structure Fault where
  code? : Option Int := none
  reason : String

namespace Fault

/-- A fault without a result code is one of the statement. -/
def failure (fault : Fault) : StoreFailure :=
  match fault.code? with
  | some code => .ofCode code fault.reason
  | none => ⟨.statement, fault.reason⟩

/-- The store is busy, or a table in it is locked. -/
def IsBusy (fault : Fault) : Prop := ∃ code, fault.code? = some code ∧ (code % 256 = 5 ∨ code % 256 = 6)

end Fault

end EntityQuery
