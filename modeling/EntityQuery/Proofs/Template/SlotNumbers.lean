import EntityQuery.Proofs.Method.Consumption
import EntityQuery.Proofs.Method.Spelling
import EntityQuery.Proofs.Template.Mentioned
import EntityQuery.Proofs.Template.Numbering

namespace EntityQuery

/-!
# Slots and their numbers

The slots of a query are those of its predicate and of the values that it assigns.  A method numbers
them one after the other.  A template meets the parameters of its text, those of the assignments before
those of the condition, and its slots are numbered in the way of their kind
(`slots_follow_parameters`).
-/

/-! ### Slots that occur -/

/-- The slots of a predicate that may be missing. -/
def Predicate.optionalSlots (p : Option Predicate) : List Slot := (p.map Predicate.slots).getD []

/-- The slots of the values that are assigned. -/
def Mutation.slots : Mutation → List Slot
  | .update assignments => assignments.flatMap fun a => a.value.slots
  | .delete => []

namespace Template

/-- The slots of a template. -/
def slots : Template → List Slot
  | .select t => t.slots
  | .bulk q => q.slots

/-- The slots that occur in the values that are assigned and in the predicate, one for each
    occurrence. -/
def occurringSlots : Template → List Slot
  | .select t => Predicate.optionalSlots t.predicate
  | .bulk q => q.mutation.slots ++ Predicate.optionalSlots q.predicate

end Template

namespace Predicate

/-- The slots of a predicate are those of its operands. -/
theorem slots_eq (p : Predicate) : p.slots = p.tests.flatMap fun t => t.operand.slots := by
  induction p with
  | comparison => exact (List.append_nil _).symm
  | and l r ihl ihr | or l r ihl ihr => rw [slots, tests, List.flatMap_append, ihl, ihr]

/-- So are those of an optional one. -/
theorem optionalSlots_eq (p : Option Predicate) :
    optionalSlots p = (optionalTests p).flatMap fun t => t.operand.slots := by
  cases p with
  | none => rfl
  | some p => exact p.slots_eq

end Predicate

/-- The slots of a leaf. -/
def ValueLeaf.slots (l : ValueLeaf) : List Slot := l.expr.slots

/-- The slots of a tree are those of the leaves that it is made of. -/
theorem ValueExpr.slots_of_denotes {r : ArithmeticRank} {ts : List (ArithmeticToken ValueLeaf)}
    {v : ValueExpr} (h : ValueExpr.tree.Denotes r ts v) :
    v.slots = ts.flatMap (ArithmeticToken.ofLeaf ValueLeaf.slots) := by
  induction h with
  | leaf => exact (List.append_nil _).symm
  | brackets _ ih =>
    rw [List.flatMap_cons, List.flatMap_append, ← ih]
    exact (List.append_nil _).symm
  | oneTerm _ ih | oneProduct _ ih => exact ih
  | product _ _ _ ihleft ihright | sum _ _ _ ihleft ihright =>
    rw [List.flatMap_append, List.flatMap_cons, ← ihleft, ← ihright]
    rfl

namespace Template

variable {α β : Type} {scope : Scope} {n n' : Numbering}

/-! ### Parameters of conditions and values -/

/-- A condition meets the parameters written in it. -/
theorem meets_of_optionalCondition {c : Option WrittenCondition} {p : Option Predicate}
    (h : optionalCondition scope c n = .ok (p, n')) :
    Meets n (WrittenCondition.parameters c) (Predicate.optionalSlots p) n' := by
  rw [Predicate.optionalSlots_eq]
  exact (compares_of_optionalCondition h).meets

/-- Where each item meets its parameters, a list of them meets all of them in order. -/
theorem meets_of_mapM {f : α → Resolving β} {parameters : α → List WrittenParameter}
    {slots : β → List Slot}
    (hf : ∀ {a b n n'}, f a n = .ok (b, n') → Meets n (parameters a) (slots b) n') {as : List α}
    {bs : List β} (h : as.mapM f n = .ok (bs, n')) :
    Meets n (as.flatMap parameters) (bs.flatMap slots) n' := by
  induction as generalizing n bs with
  | nil =>
    cases h
    exact .nil _
  | cons a as ih =>
    rw [List.mapM_cons] at h
    obtain ⟨b, _, hb, h⟩ := bind_ok_iff.1 h
    obtain ⟨bs, _, hbs, h⟩ := bind_ok_iff.1 h
    cases h
    exact (hf hb).append (ih hbs)

/-- A token meets those of its leaf. -/
theorem meets_of_token {t : ArithmeticToken WrittenLeaf} {u : ArithmeticToken ValueLeaf}
    (h : token scope t n = .ok (u, n')) :
    Meets n (t.ofLeaf WrittenLeaf.parameters) (u.ofLeaf ValueLeaf.slots) n' := by
  cases t with
  | leaf l =>
    obtain ⟨found, _, hleaf, h⟩ := bind_ok_iff.1 h
    cases h
    cases l with
    | operand w =>
      obtain ⟨o, _, hoperand, hleaf⟩ := bind_ok_iff.1 hleaf
      cases hleaf
      exact meets_of_operand hoperand
    | path written =>
      obtain ⟨f, _, hlift, hleaf⟩ := bind_ok_iff.1 hleaf
      obtain ⟨_, rfl⟩ := lift_ok_iff.1 hlift
      cases hleaf
      exact .nil _
  | operator | opening | closing =>
    cases h
    exact .nil _

/-- **A value meets its parameters in written order**, however its tree is grouped. -/
theorem meets_of_value {w : WrittenValue} {v : ValueExpr} (h : value scope w n = .ok (v, n')) :
    Meets n w.parameters v.slots n' := by
  obtain ⟨ts, hts, htree⟩ := ((alongside_term w).ok_iff fun h h' => h'.unique h).1 h
  rw [ValueExpr.slots_of_denotes htree]
  exact meets_of_mapM (fun h => meets_of_token h) hts

/-- A mutation meets those of the values it assigns. -/
theorem meets_of_mutation {w : WrittenMutation} {m : Mutation} (h : mutation scope w n = .ok (m, n')) :
    Meets n w.parameters m.slots n' := by
  cases w with
  | update assignments =>
    obtain ⟨found, _, hfound, h⟩ := bind_ok_iff.1 h
    cases h
    refine meets_of_mapM (fun {a b n n'} hassignment => ?_) hfound
    -- What is assigned to is a field and takes no parameter.
    obtain ⟨field, _, hlift, hassignment⟩ := bind_ok_iff.1 hassignment
    obtain ⟨_, rfl⟩ := lift_ok_iff.1 hlift
    obtain ⟨v, _, hv, hassignment⟩ := bind_ok_iff.1 hassignment
    cases hassignment
    exact meets_of_value hv
  | delete =>
    cases h
    exact .nil _

/-! ### Accepted texts -/

/-- A select numbers its parameters. -/
theorem numbered_of_ofSelect {schema : Schema} {w : WrittenSelect} {t : SelectTemplate}
    (h : ofSelect schema w = .ok t) :
    Numbered (WrittenTemplate.select w).parameters (Template.select t).occurringSlots t.slots := by
  unfold ofSelect at h
  obtain ⟨_, _, h⟩ := bind_eq_ok_iff.1 h
  obtain ⟨_, _, h⟩ := bind_eq_ok_iff.1 h
  obtain ⟨_, _, h⟩ := bind_eq_ok_iff.1 h
  obtain ⟨⟨predicate, numbering⟩, hcondition, h⟩ := bind_eq_ok_iff.1 h
  obtain ⟨_, _, h⟩ := bind_eq_ok_iff.1 h
  cases h
  exact numbered_of_meets (meets_of_optionalCondition hcondition)

/-- And so does a bulk statement. -/
theorem numbered_of_ofBulk {schema : Schema} {w : WrittenBulk} {q : BulkQuery}
    (h : ofBulk schema w = .ok q) :
    Numbered (WrittenTemplate.bulk w).parameters (Template.bulk q).occurringSlots q.slots := by
  unfold ofBulk at h
  obtain ⟨scope, _, h⟩ := bind_eq_ok_iff.1 h
  obtain ⟨⟨⟨m, predicate⟩, numbering⟩, hrun, h⟩ := bind_eq_ok_iff.1 h
  obtain ⟨_, _, h⟩ := bind_eq_ok_iff.1 h
  cases h
  obtain ⟨_, _, hmutation, hrun⟩ := bind_ok_iff.1 hrun
  obtain ⟨_, _, hcondition, hrun⟩ := bind_ok_iff.1 hrun
  cases hrun
  exact numbered_of_meets ((meets_of_mutation hmutation).append (meets_of_optionalCondition hcondition))

/-- **The slots of a template** are those of the parameters in its text. -/
theorem numbered_of_parse {schema : Schema} {text : String} {t : Template}
    (h : parse schema text = .ok t) : Numbered (Grammar.parametersOf text) t.occurringSlots t.slots := by
  unfold parse at h
  split at h
  · cases h
  · rename_i w hread
    obtain ⟨found, hfound, h⟩ := bind_eq_ok_iff.1 h
    cases h
    rw [← Grammar.parameters_of_parse? hread]
    exact numbered_of_ofSelect hfound
  · rename_i w hread
    obtain ⟨found, hfound, h⟩ := bind_eq_ok_iff.1 h
    cases h
    rw [← Grammar.parameters_of_parse? hread]
    exact numbered_of_ofBulk hfound

end Template

/-- **The slots of a method** are those of its predicate in visiting order, one after the other. -/
theorem MethodQuery.slots_of_parse {schema : Schema} {entity : Entity} {text : String}
    {q : MethodQuery} (h : parse schema entity text = .ok q) :
    q.slots = Predicate.optionalSlots q.predicate ∧ q.slots = slotsFrom 0 q.slots.length := by
  obtain ⟨d, _, hread⟩ := exists_readFrom_of_parse h
  obtain ⟨gs, _, _, _, hpredicate⟩ := exists_clauses_of_predicateOf hread.predicate
  have hslots : q.slots = slotsFrom 0 (arity gs.flatten) := by
    rw [hread.slots, hpredicate, slots_any, slots_numbered]
  refine ⟨hread.slots, ?_⟩
  rw [hslots, slotsFrom, slotsFrom, List.length_map, List.length_range']

/-- **Slots follow the parameters.**  An accepted method has the slots of its predicate in visiting
    order, without names and numbered one after the other.  An accepted template has the slots that
    occur in its assignments and its predicate, by their indexes and none of them twice.  Each parameter
    that is written in its text stands for one of the occurrences, in the same order: either all of them
    are names, which are numbered by their first appearance in the text, or all of them are positions,
    which count from one. -/
theorem slots_follow_parameters (schema : Schema) (text : String) :
    (∀ entity q, MethodQuery.parse schema entity text = .ok q →
      q.slots = Predicate.optionalSlots q.predicate ∧
        q.slots = (List.range q.slots.length).map fun i => ⟨i, none⟩) ∧
    ∀ t, Template.parse schema text = .ok t →
      Template.Numbered (Grammar.parametersOf text) t.occurringSlots t.slots := by
  refine ⟨fun entity q h => ?_, fun t h => Template.numbered_of_parse h⟩
  rw [List.range_eq_range']
  exact MethodQuery.slots_of_parse h

namespace Sample

/-- An update with two names, one of which stands at two places. -/
def steppedText : String :=
  "update Member m set m.age = m.age + :step where m.age < :limit or m.age = :step"

/-- A method with two values. -/
def twoAgesText : String := "findByAgeAndTeamIsNullOrAgeGreaterThan"

end Sample

/-- Two comparisons of a method take two slots, and a name at two places of a template takes one. -/
theorem slots_follow_parameters_members :
    (∃ q, MethodQuery.parse Sample.league Sample.member Sample.twoAgesText = .ok q ∧
      q.slots = [⟨0, none⟩, ⟨1, none⟩]) ∧
    ∃ t, Template.parse Sample.league Sample.steppedText = .ok t ∧
      t.occurringSlots = [⟨0, some "step"⟩, ⟨1, some "limit"⟩, ⟨0, some "step"⟩] ∧
      t.slots = [⟨0, some "step"⟩, ⟨1, some "limit"⟩] := by
  constructor
  · have hread : (MethodQuery.parse Sample.league Sample.member Sample.twoAgesText).toOption.any
        (fun q => decide (q.slots.length = 2)) = true := by decide +kernel
    obtain ⟨q, hq, hlength⟩ := any_toOption_iff.1 hread
    have hslots := ((slots_follow_parameters Sample.league Sample.twoAgesText).1 Sample.member q hq).2
    rw [of_decide_eq_true hlength] at hslots
    exact ⟨q, hq, hslots⟩
  · obtain ⟨t, ht⟩ := Sample.exists_parse Sample.steppedText (by decide +kernel)
    have hnumbered := (slots_follow_parameters Sample.league Sample.steppedText).2 t ht
    have hwritten : Grammar.parametersOf Sample.steppedText =
        ["step", "limit", "step"].map .named := by decide
    refine ⟨t, ht, ?_⟩
    -- The parameters of the text have names, so the numbering by position is out of the question.
    cases hnumbered.kind with
    | named names hnames hranked hslots =>
      have hinj : ∀ name name' : String, WrittenParameter.named name = .named name' → name = name' :=
        fun _ _ h => WrittenParameter.named.inj h
      obtain rfl := (List.map_inj_right hinj).1 (hwritten.symm.trans hnames)
      exact ⟨hranked.trans (by decide), hslots.trans (by decide)⟩
    | positional numbers hpositions =>
      have hheads := congrArg List.head? (hwritten.symm.trans hpositions)
      cases numbers <;> cases hheads

end EntityQuery
