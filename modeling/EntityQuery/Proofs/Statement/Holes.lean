import EntityQuery.Proofs.Statement.Compared
import EntityQuery.Sql.Native

namespace EntityQuery

/-!
# Holes of a statement

The holes of a statement are its fragments that are not text.  However text is merged when a statement is
built, the holes stay what they are, in their order: a compiled statement has those of the tests of its
predicate (`Select.holes_compiled`), an update or delete those of its assignments before them
(`BulkQuery.holes_compile`), and a statement given as text one slot for each of its placeholders
(`Native.exists_slot_of_mem_holes`).  Binding depends on the holes alone: it succeeds exactly if each of
them can be bound (`Statement.exists_bind_iff`), and gives their values (`Statement.values_of_bind`).
-/

/-! ### Fragments -/

namespace Fragment

/-- Whether a fragment takes values. -/
def isHole : Fragment → Bool
  | .sql _ => false
  | _ => true

/-- Text is no hole. -/
@[simp] theorem filter_isHole_sql (text : String) (fs : List Fragment) :
    (.sql text :: fs).filter isHole = fs.filter isHole := rfl

/-- Fragments without the text between them. -/
def holesReading : Reading (List Fragment) := .ofItems (fun f => [f].filter isHole) fun _ _ => rfl

/-- However text is merged, what takes values stays what it is. -/
theorem filter_isHole_eq_read (fs : List Fragment) : fs.filter isHole = holesReading.read fs := by
  induction fs with
  | nil => rfl
  | cons f fs ih =>
    rw [Reading.read_cons, ← ih]
    show (f :: fs).filter isHole = [f].filter isHole ++ fs.filter isHole
    rw [← List.filter_append, List.singleton_append]

variable {lookup : Slot → Except ParameterFault Value}

/-- The slot that is filled when a fragment is bound. -/
def slot? : Fragment → Option Slot
  | .slot s | .slotList s => some s
  | _ => none

/-- The values of a fragment, if it can be bound. -/
def values (lookup : Slot → Except ParameterFault Value) (f : Fragment) : List Value :=
  Piece.values (f.pieces lookup)

/-- All the values of a statement come from its holes. -/
theorem values_allPieces (fs : List Fragment) :
    Piece.values (allPieces lookup fs) = (fs.filter isHole).flatMap (values lookup) := by
  induction fs with
  | nil => rfl
  | cons f fs ih =>
    rw [allPieces_cons, Piece.values_append, ih]
    cases f <;> rfl

/-- A fragment that cannot be bound is a slot: it has no value, or a list where one value is taken. -/
theorem bind_eq_fault_iff {f : Fragment} {fault : ParameterFault} :
    f.bind lookup = .error fault ↔
      (∃ slot, f.slot? = some slot ∧ lookup slot = .error fault) ∨
        ∃ slot items, f = .slot slot ∧ lookup slot = .ok (.list items) ∧
          fault = .listForValue slot := by
  cases f with
  | sql | value | valueList => simp [bind, slot?]
  | slotList s =>
    simp only [bind, bind_eq_error_iff, slot?, Option.some.injEq, exists_eq_left', reduceCtorEq,
      false_and, exists_false, or_false, or_iff_left_iff_imp]
    rintro ⟨v, _, h⟩
    cases v <;> cases h
  | slot s =>
    simp only [bind, bind_eq_error_iff, slot?, Option.some.injEq, exists_eq_left', slot.injEq]
    refine or_congr_right ⟨?_, ?_⟩
    -- Of the values that are found only a list is refused.
    · rintro ⟨v, hv, h⟩
      cases v <;> cases h
      exact ⟨s, _, rfl, hv, rfl⟩
    · rintro ⟨_, items, rfl, hitems, rfl⟩
      exact ⟨_, hitems, rfl⟩

end Fragment

namespace Statement

variable {s w : Statement} {f : Fragment} {lookup : Slot → Except ParameterFault Value}

/-- The fragments that take values, in the order of the text. -/
def holes (s : Statement) : List Fragment := s.fragments.filter Fragment.isHole

/-- Only the last fragment can be joined by another. -/
theorem addTo_concat (fs : List Fragment) (f g : Fragment) :
    addTo (fs ++ [f]) g = fs ++ addTo [f] g := by
  induction fs with
  | nil => rfl
  | cons first fs ih =>
    rw [List.cons_append, List.cons_append, ← ih]
    obtain ⟨second, more, hmore⟩ :=
      List.exists_cons_of_ne_nil (List.append_ne_nil_of_right_ne_nil fs (List.cons_ne_nil f []))
    rw [hmore]
    cases first <;> rfl

/-- A fragment is added to the last one alone. -/
theorem push_concat (fs : List Fragment) (f g : Fragment) :
    push ⟨fs ++ [f]⟩ g = ⟨fs ++ addTo [f] g⟩ :=
  congrArg Statement.mk (addTo_concat fs f g)

/-- Text that is pushed behind text could as well have been pushed with it. -/
theorem push_sql (s : Statement) (a b : String) :
    (s.push (.sql a)).push (.sql b) = s.push (.sql (a ++ b)) := by
  obtain ⟨fragments⟩ := s
  rcases List.eq_nil_or_concat fragments with rfl | ⟨front, last, rfl⟩
  · rfl
  rw [List.concat_eq_append, push_concat, push_concat]
  cases last with
  | sql before =>
    show push ⟨front ++ [.sql (before ++ a)]⟩ (.sql b) = _
    rw [push_concat, addTo, addTo, String.append_assoc]
  | slot _ | slotList _ | value _ | valueList _ =>
    -- The first text stands by itself, and the second joins it.
    simp only [addTo]
    rw [List.append_cons, push_concat]
    exact congrArg Statement.mk (List.append_cons front _ _).symm

/-- Adding fragments adds their holes. -/
theorem holes_pushAll (fs : List Fragment) (s : Statement) :
    (s.pushAll fs).holes = s.holes ++ fs.filter Fragment.isHole := by
  rw [holes, Fragment.filter_isHole_eq_read, Reading.read_pushAll, ← Fragment.filter_isHole_eq_read,
    List.filter_append, holes]

/-- So does adding one. -/
theorem holes_push (s : Statement) (f : Fragment) :
    (s.push f).holes = s.holes ++ [f].filter Fragment.isHole := holes_pushAll [f] s

/-- Adding text adds none. -/
theorem holes_pushSql (s : Statement) (text : String) : (s.pushSql text).holes = s.holes := by
  rw [pushSql, holes_push]
  exact List.append_nil _

/-- A statement has the holes of its fragments. -/
theorem holes_ofFragments (fs : List Fragment) : (ofFragments fs).holes = fs.filter Fragment.isHole :=
  holes_pushAll fs {}

/-- Two statements have the holes of both. -/
theorem holes_concat (s t : Statement) : (s.concat t).holes = s.holes ++ t.holes :=
  holes_pushAll t.fragments s

/-- A window adds its bounds. -/
theorem holes_window {limit : Option Nat} {offset : Nat} (h : s.window limit offset = .ok w) :
    w.holes = s.holes ++ (windowValues limit offset).map .value := by
  have hbounds : (windowFragments limit offset).filter Fragment.isHole =
      (windowValues limit offset).map .value := by
    cases limit <;> cases offset <;> rfl
  rw [eq_pushAll_of_window h, holes_pushAll, hbounds]

/-- **Bound values are those of the holes.** -/
theorem values_of_bind {b : Bound} (h : s.bind lookup = .ok b) :
    b.values = s.holes.flatMap (Fragment.values lookup) := by
  rw [bind_eq_ofPieces_fragments h]
  exact Fragment.values_allPieces s.fragments

/-- A statement can be bound exactly if each of its holes can. -/
theorem exists_bind_iff :
    (∃ b, s.bind lookup = .ok b) ↔ ∀ f ∈ s.holes, ∃ b, f.bind lookup = .ok b := by
  constructor
  · rintro ⟨b, h⟩ f hf
    obtain ⟨parts, hparts, _⟩ := bind_eq_ok_iff.1 h
    obtain ⟨part, _, hpart⟩ :=
      exists_right_of_forall₂ (listMapM_eq_ok_iff.1 hparts) (List.mem_filter.1 hf).1
    exact ⟨part, hpart⟩
  -- Text always binds, so only the holes can fail.
  · intro h
    have hall : ∀ f ∈ s.fragments, ∃ part, f.bind lookup = .ok part := by
      intro f hf
      cases f with
      | sql text => exact ⟨_, rfl⟩
      | _ => exact h _ (List.mem_filter.2 ⟨hf, rfl⟩)
    obtain ⟨parts, hparts⟩ := exists_forall₂ hall
    exact ⟨_, bind_eq_ok_iff.2 ⟨parts, listMapM_eq_ok_iff.2 hparts, rfl⟩⟩

/-- A statement that cannot be bound has a hole that cannot. -/
theorem exists_hole_of_bind_error {fault : ParameterFault} (h : s.bind lookup = .error fault) :
    ∃ f ∈ s.holes, f.bind lookup = .error fault := by
  rcases bind_eq_error_iff.1 h with h | ⟨_, _, h⟩
  · obtain ⟨f, hf, hfault⟩ := mapM_eq_error h
    refine ⟨f, List.mem_filter.2 ⟨hf, ?_⟩, hfault⟩
    cases f with
    | sql text => cases hfault
    | _ => rfl
  · cases h

end Statement

/-! ### Conditions -/

namespace Predicate

/-- The tests of a predicate that may be missing. -/
def optionalTests (p : Option Predicate) : List Test := p.elim [] tests

/-- The tests of a conjunction are those of its parts, one after the other. -/
theorem optionalTests_all (ps : List Predicate) : optionalTests (all ps) = ps.flatMap tests := by
  cases ps with
  | nil => rfl
  | cons p ps => exact tests_foldl (fun _ _ => rfl) p ps

/-- The tests of a disjunction that may be missing are those of its parts. -/
theorem optionalTests_any (ps : List Predicate) : optionalTests (any ps) = ps.flatMap tests := by
  cases ps with
  | nil => rfl
  | cons p ps => exact tests_foldl (fun _ _ => rfl) p ps

/-- What the operand of a test leaves in a statement: nothing for a null test, a list for membership, and
    one value for any other operator. -/
def Test.holes (t : Test) : List Fragment :=
  match t.operator, t.operand with
  | .isNull, _ | .isNotNull, _ | _, .none => []
  | .isIn, .slot s => [.slotList s]
  | .isIn, .literal v => [.valueList v.items]
  | _, .slot s => [.slot s]
  | _, .literal v => [.value v]

end Predicate

namespace Condition

variable {ε κ : Type} {column : Path → Except ε κ} {noOperand : Path → Operator → ε}
variable {name : κ → String}

/-- A compiled comparison has the holes of its test. -/
theorem holes_comparison {c : κ} {t : Predicate.Test} {condition : Condition κ}
    (h : ofComparison? c t.operator t.operand = some condition) :
    (condition.fragments name).filter Fragment.isHole = t.holes := by
  obtain ⟨path, operator, operand⟩ := t
  cases operand with
  | none => cases operator <;> cases h <;> rfl
  | slot s => cases operator <;> cases h <;> rfl
  | literal v =>
    cases operator
    case isIn => cases v <;> cases h <;> rfl
    all_goals
      cases h
      rfl

/-- A condition has the holes of the tests of its predicate. -/
theorem holes_fragments {p : Predicate} {condition : Condition κ}
    (h : ofPredicate column noOperand p = .ok condition) :
    (condition.fragments name).filter Fragment.isHole = p.tests.flatMap Predicate.Test.holes := by
  induction p generalizing condition with
  | comparison path operator operand =>
    rw [ofPredicate] at h
    obtain ⟨c, hc, h⟩ := bind_eq_ok_iff.1 h
    -- A comparison without an operand is not compiled where the operator needs one.
    split at h
    · rename_i made hmade
      obtain rfl := pure_eq_ok_iff.1 h
      rw [Predicate.tests, List.flatMap_singleton]
      exact holes_comparison hmade
    · exact absurd h throw_ne_ok
  | and l r ihl ihr | or l r ihl ihr =>
    rw [ofPredicate] at h
    simp only [bind_eq_ok_iff, pure_eq_ok_iff] at h
    obtain ⟨left, hleft, right, hright, rfl⟩ := h
    simp [fragments, ihl hleft, ihr hright, Predicate.tests]

/-- So has a whole condition, where there is one. -/
theorem holes_whereFragments {p : Option Predicate} {condition : Option (Condition κ)}
    (h : p.mapM (ofPredicate column noOperand) = .ok condition) :
    (whereFragments name condition).filter Fragment.isHole =
      (Predicate.optionalTests p).flatMap Predicate.Test.holes := by
  rcases mapM_eq_ok_iff.1 h with ⟨rfl, rfl⟩ | ⟨q, found, rfl, rfl, hfound⟩
  · rfl
  · exact holes_fragments hfound

end Condition

/-! ### Selects -/

namespace Select

variable {schema : Schema} {q : Query} {s : Select}

/-- A select has the holes of its predicate, if what is put at its end has none. -/
theorem holes_statement (h : PlannedFor schema q s) (selected : String) (plan : JoinPlan)
    {ending : List Fragment} (hending : ending.filter Fragment.isHole = []) :
    (s.statement selected plan ending).holes =
      (Predicate.optionalTests q.predicate).flatMap Predicate.Test.holes := by
  rw [statement, Statement.holes_ofFragments, Fragment.filter_isHole_sql, List.filter_append,
    hending, List.append_nil]
  exact Condition.holes_whereFragments h.condition

/-- **Compiled statements have the holes of the predicate.** -/
theorem holes_compiled (h : Select.ofQuery schema q = .ok s) {statement : Statement}
    (hstatement : (s.compiled q).content = statement ∨ (s.compiled q).count = some statement) :
    statement.holes = (Predicate.optionalTests q.predicate).flatMap Predicate.Test.holes := by
  have hplanned := plannedFor_of_ofQuery h
  unfold compiled at hstatement
  rcases hstatement with rfl | hcount
  · dsimp only
    split <;> exact holes_statement hplanned _ _ rfl
  · dsimp only at hcount
    split at hcount
    · cases hcount
      exact holes_statement hplanned _ _ rfl
    · cases hcount

end Select

/-! ### Updates and deletes -/

/-- What an operand of an assignment leaves in a statement; a missing one is null. -/
def Operand.holes : Operand → List Fragment
  | .slot s => [.slot s]
  | .literal v => [.value v]
  | .none => []

/-- The operands of all assignments, in written order. -/
def Mutation.operands : Mutation → List Operand
  | .delete => []
  | .update assignments => assignments.flatMap fun a => a.value.operands

namespace BulkQuery

/-- An expression has the holes of its operands. -/
theorem holes_valueFragments (e : ValueExpr) :
    (valueFragments e).filter Fragment.isHole = e.operands.flatMap Operand.holes := by
  induction e with
  | operand o => cases o <;> rfl
  | field f => rfl
  | binary operator l r ihl ihr => simp [valueFragments, ValueExpr.operands, ihl, ihr]

/-- A mutation has the holes of its operands, assignment by assignment. -/
theorem holes_mutationFragments {table : String} {m : Mutation} {fs : List Fragment}
    (h : mutationFragments table m = .ok fs) :
    fs.filter Fragment.isHole = m.operands.flatMap Operand.holes := by
  have hassignment : ∀ a : Assignment,
      (assignmentFragments a).filter Fragment.isHole = a.value.operands.flatMap Operand.holes :=
    fun a => holes_valueFragments a.value
  cases m with
  | delete => cases h; rfl
  | update assignments =>
    cases assignments with
    | nil => cases h
    | cons a more =>
      cases h
      -- The commas in between are text.
      have hmore : (more.flatMap fun a => .sql ", " :: assignmentFragments a).filter Fragment.isHole =
          (more.flatMap fun a => a.value.operands).flatMap Operand.holes := by
        induction more with
        | nil => rfl
        | cons b more ih => simp [ih, hassignment]
      simp [Mutation.operands, hassignment, hmore]

/-- **An update or delete has the holes of its assignments, and then those of its predicate.** -/
theorem holes_compile {schema : Schema} {q : BulkQuery} {statement : Statement}
    (h : q.compile schema = .ok statement) :
    statement.holes = q.mutation.operands.flatMap Operand.holes ++
      (Predicate.optionalTests q.predicate).flatMap Predicate.Test.holes := by
  unfold compile at h
  obtain ⟨mutation, hmutation, h⟩ := bind_eq_ok_iff.1 h
  obtain ⟨condition, hcondition, h⟩ := bind_eq_ok_iff.1 h
  obtain rfl := pure_eq_ok_iff.1 h
  rw [Statement.holes_ofFragments, List.filter_append, holes_mutationFragments hmutation,
    Condition.holes_whereFragments hcondition]

end BulkQuery

/-! ### Statements given as text -/

namespace Native

/-- The holes of a native text are slots for single values. -/
theorem exists_slot_of_mem_fragments {next : Nat} {ts : List Token} {f : Fragment}
    (h : f ∈ (fragments next ts).filter Fragment.isHole) : ∃ index, f = .slot ⟨index, none⟩ := by
  fun_induction fragments next ts with
  | case1 => cases h
  | case2 next chars rest ih => exact ih h
  | case3 next digits rest index _ ih | case4 next digits rest _ ih =>
    rcases List.mem_cons.1 h with rfl | h
    · exact ⟨_, rfl⟩
    · exact ih h

/-- Each placeholder of a text is one slot, and nothing else of it takes a value. -/
theorem exists_slot_of_mem_holes {sql : String} {f : Fragment} (h : f ∈ (statement sql).holes) :
    ∃ index, f = .slot ⟨index, none⟩ := by
  rw [statement, Statement.holes_ofFragments, Fragment.filter_isHole_sql] at h
  exact exists_slot_of_mem_fragments h

end Native

/-- An order adds no hole. -/
theorem Compiled.holes_orderNative {c : Compiled} {order : SortOrder} {statement : Statement}
    (h : c.orderNative order = .ok statement) : statement.holes = c.content.holes := by
  unfold orderNative at h
  split at h
  · cases h
    rfl
  · obtain ⟨terms, _, h⟩ := bind_eq_ok_iff.1 h
    cases h
    exact Statement.holes_pushSql _ _

namespace NativeQuery

variable {q : NativeQuery} {c : Compiled}

/-- The content of a native query has the holes of its text. -/
theorem holes_content (q : NativeQuery) : q.content.holes = (Native.statement q.sql).holes := by
  have hhead : ∀ text, (Statement.ofFragments [.sql text]).holes = [] :=
    fun text => Statement.holes_ofFragments [.sql text]
  unfold content
  split <;> rw [Statement.holes_pushSql, Statement.holes_concat, hhead, List.nil_append]

/-- **The statements of a text take single values only**, however they are ordered. -/
theorem exists_slot_of_mem_holes (hc : q.compile = .ok c) {order : SortOrder} {statement : Statement}
    (h : c.orderNative order = .ok statement ∨ c.count = some statement) :
    ∀ f ∈ statement.holes, ∃ index, f = .slot ⟨index, none⟩ := by
  intro f hf
  unfold compile at hc
  split at hc
  · cases hc
  · split at hc
    · cases hc
    · cases hc
      -- The content is the text with an order behind it; the count is a text of its own.
      rcases h with h | hcount
      · rw [Compiled.holes_orderNative h, holes_content] at hf
        exact Native.exists_slot_of_mem_holes hf
      · dsimp only at hcount
        split at hcount
        · obtain ⟨sql, _, rfl⟩ := Option.map_eq_some_iff.1 hcount
          exact Native.exists_slot_of_mem_holes hf
        · cases hcount

end NativeQuery

end EntityQuery
