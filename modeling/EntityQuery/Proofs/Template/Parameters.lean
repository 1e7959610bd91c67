import EntityQuery.Proofs.Template.Numbering

namespace EntityQuery

/-!
# Named parameters of selects

The parameters of a select are those of its condition.  Each occurrence of a name in the text is an
occurrence of a slot in the predicate, and the index of the slot is the rank of the name among the names
of this text, in the order of their first appearance (`Template.parameters_of_parse`).
-/

/-! ### Written names -/

/-- The name of the parameter of a test, if it has one. -/
def WrittenTest.names : WrittenTest → List String
  | .compare _ (.named name) => [name]
  | _ => []

/-- The names of the parameters of comparisons, one for each occurrence. -/
def WrittenComparison.allNames (cs : List WrittenComparison) : List String :=
  cs.flatMap fun c => c.test.names

/-- The names of the parameters of a select, one for each occurrence. -/
def WrittenSelect.names (w : WrittenSelect) : List String :=
  WrittenComparison.allNames (WrittenCondition.comparisons w.condition)

/-- The name of a parameter, if it has one. -/
def WrittenParameter.name? : WrittenParameter → Option String
  | .named name => some name
  | .positional _ => none

/-- The names of comparisons are those of their parameters. -/
theorem WrittenComparison.allNames_eq (cs : List WrittenComparison) :
    allNames cs = (parametersOfAll cs).filterMap WrittenParameter.name? := by
  have hnames : ∀ t : WrittenTest, t.names = t.parameters.filterMap WrittenParameter.name? := by
    intro t
    cases t with
    | isNull | isNotNull | oneOf => rfl
    | compare _ o => cases o <;> rfl
  rw [allNames, parametersOfAll, List.filterMap_flatMap]
  exact List.flatMap_congr fun c _ => hnames c.test

namespace Template

open Predicate (Test)

variable {scope : Scope} {n n' : Numbering}

/-! ### Occurrences -/

/-- Slots of named parameters: one for each occurrence of a name, at the rank that `rank` gives. -/
structure StandFor (slots : List Slot) (names : List String) (rank : String → Nat) : Prop where
  names : slots.filterMap (·.name) = names
  ranked : ∀ s ∈ slots, ∀ name, s.name = some name → s.index = rank name

/-- Slots without names stand for no names. -/
theorem standFor_of_unnamed {slots : List Slot} (rank : String → Nat)
    (h : ∀ s ∈ slots, s.name = none) : StandFor slots [] rank := by
  refine ⟨List.filterMap_eq_nil_iff.2 h, fun s hs name hname => ?_⟩
  rw [h s hs] at hname
  cases hname

/-- **Slots of one kind stand for the names among their parameters**; where all parameters are
    positions, there is no name. -/
theorem OneKind.standFor {ps : List WrittenParameter} {occurring slots : List Slot}
    (h : OneKind ps occurring slots) :
    StandFor occurring (ps.filterMap WrittenParameter.name?)
      (nameRank (ps.filterMap WrittenParameter.name?)) := by
  cases h with
  | named names hwritten hranked _ =>
    -- Every parameter has a name, and its slot has the rank of it.
    have hnames : ps.filterMap WrittenParameter.name? = names := by
      rw [hwritten, List.filterMap_map]
      exact List.filterMap_some
    rw [hnames, hranked]
    refine ⟨?_, List.forall_mem_map.2 fun name _ name' hname => ?_⟩
    · rw [List.filterMap_map]
      exact List.filterMap_some
    · cases hname
      rfl
  | positional numbers hwritten _ hcounted =>
    have hnames : ps.filterMap WrittenParameter.name? = [] := by
      rw [hwritten, List.filterMap_map]
      exact List.filterMap_eq_nil_iff.2 fun _ _ => rfl
    rw [hnames, hcounted]
    exact standFor_of_unnamed _ (List.forall_mem_map.2 fun _ _ => rfl)

/-! ### What the grammar reads -/

/-- The operator of a test takes the operand that is written for it. -/
def TakesOperand : WrittenTest → Prop
  | .compare operator _ => operator.arity = 1
  | _ => True

/-- All comparisons take their operands. -/
def AllTake (cs : List WrittenComparison) : Prop := ∀ c ∈ cs, TakesOperand c.test

/-- All comparisons of the atoms take an operand if each atom's do. -/
theorem allTake_comparisonsOf {atoms : List WrittenAtom} (h : ∀ a ∈ atoms, AllTake a.comparisons) :
    AllTake (WrittenAtom.comparisonsOf atoms) := by
  induction atoms with
  | nil =>
    rw [WrittenAtom.comparisonsOf]
    exact nofun
  | cons a more ih =>
    rw [List.forall_mem_cons] at h
    rw [WrittenAtom.comparisonsOf]
    exact List.forall_mem_append.2 ⟨h.1, ih h.2⟩

/-- And so do those of the alternatives. -/
theorem allTake_comparisonsOfAll {alternatives : List (List WrittenAtom)}
    (h : ∀ atoms ∈ alternatives, ∀ a ∈ atoms, AllTake a.comparisons) :
    AllTake (WrittenAtom.comparisonsOfAll alternatives) := by
  induction alternatives with
  | nil =>
    rw [WrittenAtom.comparisonsOfAll]
    exact nofun
  | cons atoms more ih =>
    rw [List.forall_mem_cons] at h
    rw [WrittenAtom.comparisonsOfAll]
    exact List.forall_mem_append.2 ⟨allTake_comparisonsOf h.1, ih h.2⟩

section Grammar

open Text Text.Reader

/-- A comparator that is read takes one operand. -/
theorem takes_comparator : Yields Grammar.comparator fun operator => operator.arity = 1 := by
  have hsymbol : ∀ (symbol : String) (operator : Operator), operator.arity = 1 →
      Yields (do Grammar.symbol symbol; return operator) fun operator => operator.arity = 1 :=
    fun _ _ htakes => (yields_true _).bind fun _ _ => yields_pure htakes
  exact (hsymbol _ _ rfl).orElse ((hsymbol _ _ rfl).orElse ((hsymbol _ _ rfl).orElse
    ((hsymbol _ _ rfl).orElse ((hsymbol _ _ rfl).orElse ((hsymbol _ _ rfl).orElse
      (hsymbol _ _ rfl))))))

/-- A comparison that is read takes what its test asks for. -/
theorem takes_comparison : Yields Grammar.comparison fun a => AllTake a.comparisons := by
  have hnull : Yields Grammar.nullTest TakesOperand := by
    refine (yields_true _).bind fun _ _ => (yields_true _).bind fun negated _ =>
      (yields_true _).bind fun _ _ => yields_pure ?_
    cases negated <;> trivial
  have hin : Yields Grammar.inTest TakesOperand := by
    refine (yields_true _).bind fun _ _ => Yields.orElse ?_ (.map fun _ _ _ _ => rfl)
    exact (yields_true _).bind fun _ _ => (yields_true _).bind fun _ _ =>
      (yields_true _).bind fun _ _ => yields_pure trivial
  have hlike : Yields Grammar.likeTest TakesOperand :=
    (yields_true _).bind fun _ _ => (yields_true _).bind fun _ _ => yields_pure rfl
  have hbinary : Yields Grammar.binaryTest TakesOperand :=
    takes_comparator.bind fun _ htakes => (yields_true _).bind fun _ _ => yields_pure htakes
  -- Whichever of the four tests it is, the reader has made sure of that.
  refine (yields_true _).bind fun p _ =>
    (hnull.orElse (hin.orElse (hlike.orElse hbinary))).bind fun t ht => yields_pure ?_
  rw [WrittenAtom.comparisons]
  exact List.forall_mem_singleton.2 ht

/-- Alternatives do if what they are made of does. -/
theorem takes_alternatives {reader : Reader WrittenAtom}
    (h : Yields reader fun a => AllTake a.comparisons) :
    Yields (Grammar.alternatives reader) fun c => AllTake (WrittenAtom.comparisonsOfAll c) :=
  fun s c t hc => allTake_comparisonsOfAll ((h.separated _).separated _ s c t hc)

/-- **Every operator that is read takes an operand**, by induction on the depth of the brackets. -/
theorem takes_atom (depth : Nat) : Yields (Grammar.atom depth) fun a => AllTake a.comparisons := by
  induction depth with
  | zero => exact takes_comparison
  | succ depth ih =>
    refine Yields.orElse ((yields_true _).bind fun _ _ => (takes_alternatives ih).bind fun inner hinner =>
      (yields_true _).bind fun _ _ => yields_pure ?_) takes_comparison
    rw [WrittenAtom.comparisons]
    exact hinner

/-- All comparisons of a select take their operands. -/
def SelectTakes : WrittenTemplate → Prop
  | .select w => AllTake (WrittenCondition.comparisons w.condition)
  | .bulk _ => True

/-- So does a statement. -/
theorem takes_statement (depth : Nat) : Yields (Grammar.statement depth) SelectTakes := by
  have hwhere : Yields (optional (Grammar.whereClause depth))
      fun c => AllTake (WrittenCondition.comparisons c) :=
    Yields.orElse (.map ((yields_true _).bind fun _ _ => takes_alternatives (takes_atom depth)))
      (yields_pure nofun)
  have hselect : Yields (WrittenTemplate.select <$> Grammar.selectStatement depth) SelectTakes := by
    -- The condition is read behind the joins, and only the order follows it.
    refine .map ?_
    exact (yields_true _).bind fun _ _ => (yields_true _).bind fun _ _ => (yields_true _).bind fun _ _ =>
      (yields_true _).bind fun _ _ => (yields_true _).bind fun _ _ => (yields_true _).bind fun _ _ =>
      (yields_true _).bind fun _ _ => hwhere.bind fun _ hc => (yields_true _).bind fun _ _ =>
      yields_pure hc
  have hupdate : Yields (WrittenTemplate.bulk <$> Grammar.updateStatement depth) SelectTakes :=
    .map fun _ _ _ _ => trivial
  have hdelete : Yields (WrittenTemplate.bulk <$> Grammar.deleteStatement depth) SelectTakes :=
    .map fun _ _ _ _ => trivial
  exact (hselect.orElse (hupdate.orElse hdelete)).bind fun _ h =>
    (yields_true _).bind fun _ _ => yields_pure h

/-- And a whole text. -/
theorem takes_of_parse? {text : String} {w : WrittenTemplate} (h : Grammar.parse? text = some w) :
    SelectTakes w := by
  unfold Grammar.parse? whole at h
  dsimp only at h
  split at h
  · rename_i hread
    cases h
    exact takes_statement _ _ _ _ hread
  · cases h

end Grammar

/-! ### Whole templates -/

/-- What is read of a comparison takes all slots of its operand; a null test is read without any. -/
theorem slots_of_comparison {c : WrittenComparison} {t : Test}
    (h : comparison scope c.path c.test n = .ok (.comparison t.path t.operator t.operand, n'))
    (hc : TakesOperand c.test) : t.slots = t.operand.slots := by
  obtain ⟨path, operator, o⟩ := t
  obtain ⟨_, _, _, hp, _, _, htest⟩ := comparison_ok h
  cases hp
  obtain ⟨written, asked⟩ := c
  -- A test for null and a written list have no slots; a comparator has those of its operand.
  cases asked with
  | isNull =>
    cases htest
    rfl
  | isNotNull =>
    cases htest
    rfl
  | oneOf items =>
    obtain ⟨_, _, _, htest⟩ := bind_ok_iff.1 htest
    cases htest
    rfl
  | compare written operand =>
    obtain ⟨_, _, _, htest⟩ := bind_ok_iff.1 htest
    cases htest
    have harity : operator.arity = 1 := hc
    exact if_neg (by rw [harity]; decide)

/-- **The parameters of a template**: the slots that its statements take stand for the names that are
    written in it, one for each occurrence and each with the rank of its name in this text. -/
theorem parameters_of_parse {schema : Schema} {text : String} {t : SelectTemplate}
    (h : parse schema text = .ok (.select t)) :
    ∃ w, Grammar.parse? text = some (.select w) ∧
      StandFor ((Predicate.optionalTests t.predicate).flatMap Test.slots) w.names
        (nameRank w.names) := by
  unfold parse at h
  split at h
  · cases h
  · rename_i w hread
    obtain ⟨found, hfound, h⟩ := bind_eq_ok_iff.1 h
    cases h
    unfold ofSelect at hfound
    obtain ⟨scope, _, hfound⟩ := bind_eq_ok_iff.1 hfound
    obtain ⟨⟨joins, scope'⟩, _, hfound⟩ := bind_eq_ok_iff.1 hfound
    obtain ⟨⟨selections, target, countOnly⟩, _, hfound⟩ := bind_eq_ok_iff.1 hfound
    obtain ⟨⟨predicate, numbering⟩, hcondition, hfound⟩ := bind_eq_ok_iff.1 hfound
    obtain ⟨order, _, hfound⟩ := bind_eq_ok_iff.1 hfound
    cases hfound
    have hcompares := compares_of_optionalCondition hcondition
    -- The slots of a test are those of its operand, since the grammar gives it one where it takes one.
    have hall : SelectTakes (.select w) := takes_of_parse? hread
    refine ⟨w, hread, ?_⟩
    have hslots : ∀ t ∈ Predicate.optionalTests predicate, t.slots = t.operand.slots := by
      intro t ht
      obtain ⟨c, hc, hslots⟩ := exists_left_of_forall₂ (hcompares.forall₂ slots_of_comparison) ht
      exact hslots (hall c hc)
    rw [List.flatMap_congr hslots, WrittenSelect.names, WrittenComparison.allNames_eq]
    exact (oneKind_of_meets hcompares.meets).standFor
  · obtain ⟨found, _, h⟩ := bind_eq_ok_iff.1 h
    cases h

end Template

end EntityQuery
