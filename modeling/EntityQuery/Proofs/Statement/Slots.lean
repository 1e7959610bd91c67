import EntityQuery.Proofs.Statement.Holes
import EntityQuery.Repository.Arguments

namespace EntityQuery

/-!
# Slots of a statement

The slots of a compiled statement are those that the tests of its predicate take, in the same order
(`Select.slots_compiled`), and a window adds none.  Once a statement is bound, each of its slots has a
value; that of a name is the same at every place where the name stands (`Statement.Gives`).
-/

/-- The slots that the operator of a test takes: a null test ignores its operand. -/
def Predicate.Test.slots (t : Test) : List Slot :=
  if t.operator.arity = 0 then [] else t.operand.slots

/-- The holes of a test that are filled when it is bound are its slots. -/
theorem Predicate.Test.filterMap_holes (t : Test) : t.holes.filterMap Fragment.slot? = t.slots := by
  obtain ⟨path, operator, operand⟩ := t
  cases operand <;> cases operator <;> rfl

namespace Statement

/-- The slots of a statement in the order of its text, one for each place. -/
def slots (s : Statement) : List Slot := s.fragments.filterMap Fragment.slot?

/-- The slots of a statement are those of its holes. -/
theorem slots_eq (s : Statement) : s.slots = s.holes.filterMap Fragment.slot? := by
  rw [slots, holes, List.filterMap_filter]
  refine List.filterMap_congr fun f _ => ?_
  cases f <;> rfl

/-- A window adds no slot. -/
theorem slots_window {s w : Statement} {limit : Option Nat} {offset : Nat}
    (h : s.window limit offset = .ok w) : w.slots = s.slots := by
  rw [slots_eq, slots_eq, holes_window h, List.filterMap_append, List.filterMap_map]
  simp [Function.comp_def, Fragment.slot?]

/-- What a name stands for in a statement: it has a place, and every place of the name is filled with
    the value. -/
structure Gives (s : Statement) (args : CallArguments) (name : String) (v : Value) : Prop where
  occurs : ∃ slot ∈ s.slots, slot.name = some name
  filled : ∀ slot ∈ s.slots, slot.name = some name → args.lookup slot = .ok v

/-- A name stands for one value only. -/
theorem Gives.unique {s : Statement} {args : CallArguments} {name : String} {v v' : Value}
    (h : s.Gives args name v) (h' : s.Gives args name v') : v = v' := by
  obtain ⟨slot, hslot, hname⟩ := h.occurs
  exact Except.ok.inj ((h.filled slot hslot hname).symm.trans (h'.filled slot hslot hname))

/-- Each slot of a statement that was bound has a value. -/
theorem exists_lookup_of_bind {s : Statement} {lookup : Slot → Except ParameterFault Value} {b : Bound}
    (h : s.bind lookup = .ok b) {slot : Slot} (hslot : slot ∈ s.slots) : ∃ v, lookup slot = .ok v := by
  rw [slots_eq] at hslot
  obtain ⟨f, hf, hfslot⟩ := List.mem_filterMap.1 hslot
  obtain ⟨part, hpart⟩ := exists_bind_iff.1 ⟨b, h⟩ f hf
  cases f <;> cases hfslot <;>
  · obtain ⟨v, hv, _⟩ := bind_eq_ok_iff.1 hpart
    exact ⟨v, hv⟩

end Statement

/-- **Compiled statements have the slots of the predicate.** -/
theorem Select.slots_compiled {schema : Schema} {q : Query} {s : Select}
    (h : Select.ofQuery schema q = .ok s) {statement : Statement}
    (hstatement : (s.compiled q).content = statement ∨ (s.compiled q).count = some statement) :
    statement.slots = (Predicate.optionalTests q.predicate).flatMap Predicate.Test.slots := by
  rw [Statement.slots_eq, holes_compiled h hstatement, List.filterMap_flatMap]
  simp only [Predicate.Test.filterMap_holes]

end EntityQuery
