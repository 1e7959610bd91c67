import EntityQuery.Proofs.Plan.Scope
import EntityQuery.Proofs.Statement.Pieces
import EntityQuery.Sql.Bulk

namespace EntityQuery

/-!
# Values of comparisons and assignments

Which values the operands of a predicate and of assignments stand for, in visiting order, and which
pieces they become.  A comparison is told with its operand (`Predicate.tests`); its values are those
that stand in its pieces (`Predicate.values_pieces`), and the fragments of its condition have just
these pieces (`Condition.allPieces_fragments`).
-/

variable {lookup : Slot → Except ParameterFault Value}

/-- The value that an operand stands for. -/
def Operand.value? (lookup : Slot → Except ParameterFault Value) : Operand → Option Value
  | .slot s => (lookup s).toOption
  | .literal v => some v
  | .none => Option.none

namespace Predicate

/-! ### Comparisons -/

/-- A comparison with its operand. -/
structure Test where
  path : Path
  operator : Operator
  operand : Operand

/-- Every comparison with its operand, in visiting order. -/
def tests : Predicate → List Test
  | .comparison path operator operand => [⟨path, operator, operand⟩]
  | .and l r | .or l r => l.tests ++ r.tests

/-- The tests are the comparisons of the predicate. -/
theorem map_tests (p : Predicate) (required : Bool) :
    p.tests.map (fun t => (t.path, t.operator)) =
      (p.comparisonsWhen required).map fun c => (c.path, c.operator) := by
  induction p generalizing required with
  | comparison => rfl
  | and l r ihl ihr | or l r ihl ihr =>
    rw [tests, comparisonsWhen, List.map_append, List.map_append, ihl, ihr]

/-- Predicates that are combined one after the other have all their tests. -/
theorem tests_foldl {combine : Predicate → Predicate → Predicate}
    (hcombine : ∀ l r, (combine l r).tests = l.tests ++ r.tests) (p : Predicate) (ps : List Predicate) :
    (ps.foldl combine p).tests = p.tests ++ ps.flatMap tests := by
  induction ps generalizing p with
  | nil => exact (List.append_nil _).symm
  | cons q ps ih => rw [List.foldl_cons, ih, hcombine, List.flatMap_cons, List.append_assoc]

/-- The tests of predicates that are combined are tests of one of them. -/
theorem exists_of_mem_tests_foldl {combine : Predicate → Predicate → Predicate}
    (hcombine : ∀ l r, (combine l r).tests = l.tests ++ r.tests) {p : Predicate} {ps : List Predicate}
    {t : Test} (h : t ∈ (ps.foldl combine p).tests) : ∃ q ∈ p :: ps, t ∈ q.tests := by
  rw [tests_foldl hcombine, ← List.flatMap_cons] at h
  exact List.mem_flatMap.1 h

/-- The tests of a conjunction are tests of its parts. -/
theorem exists_of_mem_tests_all {ps : List Predicate} {p : Predicate} (hp : all ps = some p)
    {t : Test} (h : t ∈ p.tests) : ∃ q ∈ ps, t ∈ q.tests := by
  cases ps with
  | nil => cases hp
  | cons first ps =>
    cases hp
    exact exists_of_mem_tests_foldl (fun _ _ => rfl) h

/-- The tests of a disjunction are tests of its parts. -/
theorem exists_of_mem_tests_any {ps : List Predicate} {p : Predicate} (hp : any ps = some p)
    {t : Test} (h : t ∈ p.tests) : ∃ q ∈ ps, t ∈ q.tests := by
  cases ps with
  | nil => cases hp
  | cons first ps =>
    cases hp
    exact exists_of_mem_tests_foldl (fun _ _ => rfl) h

/-- The values that the operand of a test stands for: none for a null test, every item of a list
    for membership, and one value for any other operator. -/
def Test.values (lookup : Slot → Except ParameterFault Value) (t : Test) : List Value :=
  match t.operator with
  | .isNull | .isNotNull => []
  | .isIn => (t.operand.value? lookup).elim [] Value.items
  | _ => (t.operand.value? lookup).toList

/-- The values of a predicate. -/
def values (lookup : Slot → Except ParameterFault Value) (p : Predicate) : List Value :=
  p.tests.flatMap (Test.values lookup)

/-- The pieces of a test; `name` is the text of the column of a path. -/
def Test.pieces (name : Path → String) (lookup : Slot → Except ParameterFault Value) (t : Test) :
    List Piece :=
  match t.operator with
  | .isNull | .isNotNull => [.text (name t.path ++ " " ++ t.operator.sql)]
  | .isIn => .text (name t.path ++ " " ++ t.operator.sql ++ " ") :: Piece.ofList (t.values lookup)
  | _ => .text (name t.path ++ " " ++ t.operator.sql ++ " ") :: (t.values lookup).map .mark

/-- The pieces of a predicate. -/
def pieces (name : Path → String) (lookup : Slot → Except ParameterFault Value) :
    Predicate → List Piece
  | .comparison path operator operand => Test.pieces name lookup ⟨path, operator, operand⟩
  | .and l r => .text "(" :: (l.pieces name lookup ++ .text " AND " :: (r.pieces name lookup ++ [.text ")"]))
  | .or l r => .text "(" :: (l.pieces name lookup ++ .text " OR " :: (r.pieces name lookup ++ [.text ")"]))

/-- The values among the pieces of a test are those it compares with. -/
theorem Test.values_pieces (name : Path → String) (t : Test) :
    Piece.values (t.pieces name lookup) = t.values lookup := by
  obtain ⟨path, operator, operand⟩ := t
  cases operator <;> simp [Test.pieces, Test.values]

/-- The values in the pieces of a predicate are those of its operands. -/
theorem values_pieces (name : Path → String) (p : Predicate) :
    Piece.values (p.pieces name lookup) = p.values lookup := by
  induction p with
  | comparison path operator operand => simp [pieces, Test.values_pieces, values, tests]
  | and l r ihl ihr | or l r ihl ihr => simp [pieces, ihl, ihr, values, tests]

/-- The pieces of an optional predicate, which comes last. -/
def wherePieces (name : Path → String) (lookup : Slot → Except ParameterFault Value) :
    Option Predicate → List Piece
  | none => []
  | some p => .text " WHERE " :: p.pieces name lookup

/-- The values of an optional predicate. -/
def optionalValues (lookup : Slot → Except ParameterFault Value) (p : Option Predicate) :
    List Value := p.elim [] (values lookup)

/-- So they are for a whole condition. -/
theorem values_wherePieces (name : Path → String) (p : Option Predicate) :
    Piece.values (wherePieces name lookup p) = optionalValues lookup p := by
  cases p with
  | none => rfl
  | some p => simp [wherePieces, optionalValues, values_pieces]

end Predicate

/-! ### Conditions -/

namespace Condition

variable {ε κ : Type} {column : Path → Except ε κ} {noOperand : Path → Operator → ε}
variable {nameOf : κ → String} {name : Path → String}

/-- One comparison has the pieces of its test. -/
theorem allPieces_comparison {c : κ} {path : Path} {operator : Operator} {operand : Operand}
    {condition : Condition κ} (h : ofComparison? c operator operand = some condition)
    (hname : name path = nameOf c) :
    Fragment.allPieces lookup (condition.fragments nameOf) =
      Predicate.Test.pieces name lookup ⟨path, operator, operand⟩ := by
  cases operand with
  | none =>
    cases operator <;> cases h <;>
      simp [fragments, Fragment.pieces, Predicate.Test.pieces, hname]
  | slot s =>
    cases operator <;> cases h <;>
      simp [fragments, Term.fragment, TermList.fragment, Fragment.pieces, Predicate.Test.pieces,
        Predicate.Test.values, Operand.value?, hname]
  | literal v =>
    cases operator
    -- Membership alone takes a list; all other operators take the literal as it is.
    case isIn =>
      cases v <;> cases h <;>
        simp [fragments, TermList.fragment, Fragment.pieces, Predicate.Test.pieces,
          Predicate.Test.values, Operand.value?, Value.items, hname]
    all_goals
      cases h
      simp [fragments, Term.fragment, Fragment.pieces, Predicate.Test.pieces,
        Predicate.Test.values, Operand.value?, hname]

/-- **A condition has the pieces of its predicate**, with the columns of its paths. -/
theorem allPieces_fragments {p : Predicate} {condition : Condition κ}
    (h : ofPredicate column noOperand p = .ok condition)
    (hname : ∀ path ∈ p.paths, ∀ c, column path = .ok c → name path = nameOf c) :
    Fragment.allPieces lookup (condition.fragments nameOf) = p.pieces name lookup := by
  induction p generalizing condition with
  | comparison path operator operand =>
    rw [ofPredicate] at h
    obtain ⟨c, hc, h⟩ := bind_eq_ok_iff.1 h
    split at h
    · rename_i made hmade
      obtain rfl := pure_eq_ok_iff.1 h
      exact allPieces_comparison hmade (hname path (List.mem_singleton_self path) c hc)
    · exact absurd h throw_ne_ok
  -- The parentheses are text on both sides.
  | and l r ihl ihr | or l r ihl ihr =>
    rw [Predicate.paths, List.forall_mem_append] at hname
    rw [ofPredicate] at h
    simp only [bind_eq_ok_iff, pure_eq_ok_iff] at h
    obtain ⟨left, hleft, right, hright, rfl⟩ := h
    simp [fragments, Predicate.pieces, Fragment.pieces, ihl hleft hname.1, ihr hright hname.2]

/-- The same for the condition of a whole statement. -/
theorem allPieces_whereFragments {p : Option Predicate} {condition : Option (Condition κ)}
    (h : p.mapM (ofPredicate column noOperand) = .ok condition)
    (hname : ∀ q, p = some q → ∀ path ∈ q.paths, ∀ c, column path = .ok c → name path = nameOf c) :
    Fragment.allPieces lookup (whereFragments nameOf condition) =
      Predicate.wherePieces name lookup p := by
  rcases mapM_eq_ok_iff.1 h with ⟨rfl, rfl⟩ | ⟨q, found, rfl, rfl, hfound⟩
  · rfl
  · simp [whereFragments, Predicate.wherePieces, Fragment.pieces,
      allPieces_fragments hfound (hname q rfl)]

end Condition

/-! ### Updates and deletes -/

/-- The column of a property of the entity itself: that of a field, or the foreign key of an
    association. -/
theorem BulkQuery.column_eq_ok_iff {schema : Schema} {root : Entity} {path : Path} {name : String} :
    BulkQuery.column schema root path = .ok name ↔
      ∃ r, schema.resolve root path = .ok r ∧ r.crossesAssociation = false ∧
        ((∃ f, r.terminal = .field f ∧ f.column = name) ∨
          ∃ a, r.terminal = .association a ∧ a.joinColumn? = some name) := by
  unfold column
  simp only [bind_eq_ok_iff, lift_eq_ok_iff]
  refine exists_congr fun r => and_congr_right fun _ => ?_
  -- What crosses an association has no column in the table.
  cases r.crossesAssociation with
  | true => simp [bind_eq_ok_iff, throw_ne_ok]
  | false =>
    cases r.terminal with
    | field f => simp [pure_eq_ok_iff]
    | association a =>
      cases hkey : a.joinColumn? with
      | none => simp [hkey, throw_ne_ok]
      | some key => simp [hkey, pure_eq_ok_iff]

namespace ValueExpr

/-- Every operand, in written order. -/
def operands : ValueExpr → List Operand
  | .operand o => [o]
  | .field _ => []
  | .binary _ l r => l.operands ++ r.operands

/-- The values of the operands. -/
def values (lookup : Slot → Except ParameterFault Value) (e : ValueExpr) : List Value :=
  e.operands.flatMap fun o => (o.value? lookup).toList

/-- The pieces of the right side of an assignment. -/
def pieces (lookup : Slot → Except ParameterFault Value) : ValueExpr → List Piece
  | .operand .none => [.text "NULL"]
  | .operand o => (o.value? lookup).toList.map .mark
  | .field f => [.text f.column]
  | .binary operator l r =>
    .text "(" :: (l.pieces lookup ++ .text (" " ++ operator.sql ++ " ") ::
      (r.pieces lookup ++ [.text ")"]))

/-- The values among the pieces of an expression are those of its operands. -/
theorem values_pieces (e : ValueExpr) : Piece.values (e.pieces lookup) = e.values lookup := by
  induction e with
  | operand o => cases o <;> simp [pieces, values, operands, Operand.value?]
  | field f => rfl
  | binary operator l r ihl ihr => simp [pieces, ihl, ihr, values, operands]

/-- The fragments of an expression give its pieces. -/
theorem allPieces_valueFragments (e : ValueExpr) :
    Fragment.allPieces lookup (BulkQuery.valueFragments e) = e.pieces lookup := by
  induction e with
  | operand o => cases o <;> simp [BulkQuery.valueFragments, pieces, Fragment.pieces, Operand.value?]
  | field f => rfl
  | binary operator l r ihl ihr =>
    simp [BulkQuery.valueFragments, pieces, Fragment.pieces, ihl, ihr]

end ValueExpr

/-- The pieces of an assignment. -/
def Assignment.pieces (lookup : Slot → Except ParameterFault Value) (a : Assignment) : List Piece :=
  .text (a.field.column ++ " = ") :: a.value.pieces lookup

/-- An assignment has the values of its expression. -/
theorem Assignment.values_pieces (a : Assignment) :
    Piece.values (a.pieces lookup) = a.value.values lookup := by
  rw [pieces, Piece.values_text, ValueExpr.values_pieces]

namespace Mutation

/-- The values of all assignments, in written order. -/
def values (lookup : Slot → Except ParameterFault Value) : Mutation → List Value
  | .delete => []
  | .update assignments => assignments.flatMap fun a => a.value.values lookup

/-- The pieces of what is done to the rows of a table. -/
def pieces (lookup : Slot → Except ParameterFault Value) (table : String) : Mutation → List Piece
  | .delete => [.text ("DELETE FROM " ++ table)]
  | .update [] => []
  | .update (a :: more) =>
    .text ("UPDATE " ++ table ++ " SET ") :: (a.pieces lookup ++
      more.flatMap fun a => .text ", " :: a.pieces lookup)

/-- A mutation has the values of its assignments in turn. -/
theorem values_pieces (table : String) (m : Mutation) :
    Piece.values (m.pieces lookup table) = m.values lookup := by
  cases m with
  | delete => rfl
  | update assignments =>
    cases assignments with
    | nil => rfl
    | cons a more =>
      -- Each further assignment brings a comma, which is text.
      have hmore : Piece.values (more.flatMap fun a => .text ", " :: a.pieces lookup) =
          more.flatMap fun a => a.value.values lookup := by
        induction more with
        | nil => rfl
        | cons b more ih => simp [ih, Assignment.values_pieces]
      simp [pieces, values, Assignment.values_pieces, hmore]

/-- The fragments of a mutation give its pieces. -/
theorem allPieces_mutationFragments {table : String} {m : Mutation} {fs : List Fragment}
    (h : BulkQuery.mutationFragments table m = .ok fs) :
    Fragment.allPieces lookup fs = m.pieces lookup table := by
  have hassignment : ∀ a : Assignment,
      Fragment.allPieces lookup (BulkQuery.assignmentFragments a) = a.pieces lookup := by
    intro a
    simp [BulkQuery.assignmentFragments, Assignment.pieces, Fragment.pieces,
      ValueExpr.allPieces_valueFragments]
  cases m with
  | delete => cases h; rfl
  | update assignments =>
    cases assignments with
    | nil => cases h
    | cons a more =>
      cases h
      -- Each further assignment stands behind a comma on both sides.
      have hmore : Fragment.allPieces lookup
          (more.flatMap fun a => .sql ", " :: BulkQuery.assignmentFragments a) =
            more.flatMap fun a => .text ", " :: a.pieces lookup := by
        induction more with
        | nil => rfl
        | cons b more ih => simp [ih, hassignment, Fragment.pieces]
      simp [pieces, Fragment.pieces, hassignment, hmore]

end Mutation

end EntityQuery
