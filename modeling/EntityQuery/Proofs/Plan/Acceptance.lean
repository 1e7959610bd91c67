import EntityQuery.Proofs.Plan.Progress
import EntityQuery.Proofs.Schema.Joinable
import EntityQuery.Proofs.Statement.Compared

namespace EntityQuery

open JoinPlan

/-!
# Queries that compile

What has to be known of a query for its statements to be written (`Query.Sound`): its joins are
joinable, its paths can be followed, and its comparisons have the operands that they need.  Planning
such a query comes to an end in any plan.  It succeeds, unless an association is selected or sorted
by, and then the defect names it (`Query.Sound.compiles_or_blames`).
-/

variable {schema : Schema} {root : Entity} {plan : JoinPlan} {path : Path} {r : Resolution}

/-- A path that can be followed, but to an association. -/
def Schema.EndsInAssociation (schema : Schema) (root : Entity) (path : Path) : Prop :=
  ∃ r, schema.resolve root path = .ok r ∧ r.isField = false

instance (schema : Schema) (root : Entity) (path : Path) :
    Decidable (schema.EndsInAssociation root path) :=
  decidable_of_iff ((schema.resolve root path).toOption.any (fun r => !r.isField) = true) <| by
    simp [Schema.EndsInAssociation, any_toOption_iff]

/-- A path that can be followed to a field. -/
def Schema.EndsInField (schema : Schema) (root : Entity) (path : Path) : Prop :=
  ∃ r, schema.resolve root path = .ok r ∧ r.isField = true

instance (schema : Schema) (root : Entity) (path : Path) :
    Decidable (schema.EndsInField root path) :=
  decidable_of_iff ((schema.resolve root path).toOption.any (·.isField) = true) any_toOption_iff

/-- A test of a column, with an operand where its operator takes one. -/
structure Predicate.Test.Sound (schema : Schema) (root : Entity) (t : Predicate.Test) : Prop where
  resolves : ∃ r, schema.resolve root t.path = .ok r ∧
    ∀ a, r.association? = some a → a.isToOne = true
  operand : t.operator.arity = 1 → t.operand ≠ .none

/-- A query whose names were all found. -/
structure Query.Sound (schema : Schema) (q : Query) : Prop where
  registered : q.entity ∈ schema.entities
  joins : ∀ j ∈ q.joins, j.path.segments ≠ [] ∧ schema.Joinable q.entity j.path
  tests : ∀ p ∈ q.predicate, ∀ t ∈ p.tests, t.Sound schema q.entity
  order : ∀ d ∈ q.order, ∃ r, schema.resolve q.entity d.path = .ok r
  selections : ∀ s ∈ q.selections, ∃ r, schema.resolve q.entity s.path = .ok r
  /-- The columns are those of records, those of a constructor, or the ones that were written. -/
  target : q.target = .entity ∨ (∃ shape, q.target = .constructor shape) ∨
    SelectList.ofQuery schema q = SelectList.ofSelections schema q.entity q.selections

/-- The defects that a sound query can have: it asks for the value of an association. -/
inductive Query.Blames (schema : Schema) (q : Query) : CompileDefect → Prop where
  | selected {s} (written : s ∈ q.selections)
    (association : schema.EndsInAssociation q.entity s.path) : Blames schema q (.notSelectable s.path)
  | sorted {d} (written : d ∈ q.order) (association : schema.EndsInAssociation q.entity d.path) :
    Blames schema q (.orderByAssociation d.path)

/-! ### Joining -/

namespace JoinPlan

/-- A path that can be joined is joined, whatever has been joined before. -/
theorem exists_ensureReversed_of_joinable {need : JoinNeed} {reversed : List String}
    (h : schema.Joinable root ⟨reversed.reverse⟩) (hne : reversed ≠ []) :
    ∃ plan', plan.ensureReversed schema root need reversed = .ok plan' := by
  induction reversed generalizing plan need with
  | nil => exact absurd rfl hne
  | cons segment before ih =>
    have hparent : Path.parent ⟨(segment :: before).reverse⟩ = ⟨before.reverse⟩ := by
      simp [Path.parent]
    obtain ⟨r, a, foreignKey, target, key, hr, ha, hforeignKey, htarget, hkey⟩ :=
      h _ List.prefix_rfl (by simp)
    simp only [ensureReversed]
    split
    · exact ⟨_, rfl⟩
    split
    · rename_i hbefore
      rw [pure_bind]
      refine exists_add hr ha hforeignKey htarget hkey (.inl ?_)
      rw [hparent, List.isEmpty_iff.1 hbefore]
      rfl
    · -- The path before the last segment is joinable too, and is joined first.
      rename_i hbefore
      obtain ⟨mid, hmid⟩ : ∃ mid, plan.ensureReversed schema root need.onTheWay before = .ok mid :=
        ih (hparent ▸ h.parent) (by simpa using hbefore)
      rw [hmid, ok_bind]
      obtain ⟨join, hjoin, hpath, _⟩ := (grows_of_ensureReversed hmid).reached
      exact exists_add hr ha hforeignKey htarget hkey
        (.inr (hparent ▸ mem_paths.2 ⟨join, hjoin, hpath⟩))

/-- **Joinable paths can be joined** in any plan. -/
theorem exists_ensure_of_joinable (h : schema.Joinable root path) (hne : path.segments ≠ [])
    (plan : JoinPlan) (need : JoinNeed) :
    ∃ plan', plan.ensure schema root need path = .ok plan' :=
  exists_ensureReversed_of_joinable (by rwa [List.reverse_reverse]) (by simpa using hne)

/-- What is joined already is served again. -/
theorem exists_ensure_of_joined {name : String} (h : .single name ∈ plan.paths) (need : JoinNeed) :
    ∃ plan', plan.ensure schema root need (.single name) = .ok plan' := by
  have hjoined : (plan.joins.any fun join => join.path == .single name) = true := by
    simpa [mem_paths] using h
  show ∃ plan', plan.ensureReversed schema root need [name] = .ok plan'
  simp only [ensureReversed]
  exact ⟨_, if_pos hjoined⟩

/-- A property has a column once its table is joined, unless it is a to-many association. -/
theorem exists_column (hr : schema.resolve root path = .ok r)
    (hparent : path.parent.segments = [] ∨ path.parent ∈ plan.paths)
    (htoOne : ∀ a, r.association? = some a → a.isToOne = true) :
    ∃ x, plan.column schema root path = .ok x := by
  obtain ⟨table, htable⟩ := exists_table hparent
  unfold JoinPlan.column
  rw [lift_eq_ok_iff.2 hr, ok_bind, htable, ok_bind]
  split
  · exact ⟨_, rfl⟩
  · rename_i a hterminal
    obtain ⟨name, hname⟩ := Option.isSome_iff_exists.1
      (htoOne a (Resolution.association?_eq_some_iff.2 hterminal))
    rw [hname]
    exact ⟨_, rfl⟩

end JoinPlan

/-! ### Planning that comes to an end -/

namespace Planning

variable {α β : Type} {blamed : CompileDefect → Prop}

/-- In any plan the work succeeds, or it finds one of the given defects. -/
def Settles (blamed : CompileDefect → Prop) (x : Planning α) : Prop :=
  ∀ plan, (∃ a plan', x.run plan = .ok (a, plan')) ∨ ∃ e, x.run plan = .error e ∧ blamed e

/-- A sequence goes on with what its first step gives. -/
theorem run_bind_of_ok {x : Planning α} {f : α → Planning β} {a : α} {mid : JoinPlan}
    (h : x.run plan = .ok (a, mid)) : (x >>= f).run plan = (f a).run mid := by
  rw [StateT.run_bind, h]
  rfl

/-- A step that always succeeds settles. -/
theorem settles_of_exists {x : Planning α} (h : ∀ plan, ∃ a plan', x.run plan = .ok (a, plan')) :
    Settles blamed x := fun plan => .inl (h plan)

/-- So does a value that is just given. -/
theorem settles_pure (a : α) : Settles blamed (pure a) := fun plan => .inl ⟨a, plan, rfl⟩

namespace Settles

/-- A sequence settles if both of its steps do. -/
theorem bind {x : Planning α} {f : α → Planning β} (h : Settles blamed x)
    (hnext : ∀ a, Settles blamed (f a)) : Settles blamed (x >>= f) := by
  intro plan
  rcases h plan with ⟨a, mid, hx⟩ | ⟨e, hx, he⟩
  · rw [run_bind_of_ok hx]
    exact hnext a mid
  · refine .inr ⟨e, ?_, he⟩
    rw [StateT.run_bind, hx]
    rfl

/-- Steps over a list settle if each of them does. -/
theorem mapM {f : β → Planning α} {items : List β} (h : ∀ b ∈ items, Settles blamed (f b)) :
    Settles blamed (items.mapM f) := by
  induction items with
  | nil =>
    rw [List.mapM_nil]
    exact settles_pure []
  | cons item items ih =>
    rw [List.forall_mem_cons] at h
    rw [List.mapM_cons]
    exact h.1.bind fun a => (ih h.2).bind fun as => settles_pure (a :: as)

/-- And so without their results. -/
theorem forM {f : β → Planning Unit} {items : List β} (h : ∀ b ∈ items, Settles blamed (f b)) :
    Settles blamed (items.forM f) := by
  induction items with
  | nil => exact settles_pure ()
  | cons item items ih =>
    rw [List.forall_mem_cons] at h
    exact h.1.bind fun _ => ih h.2

end Settles

/-- Joining a path that can be joined always succeeds. -/
theorem settles_ensure (h : schema.Joinable root path) (hne : path.segments ≠ []) (need : JoinNeed) :
    Settles blamed (ensure schema root need path) := by
  intro plan
  obtain ⟨plan', hplan'⟩ := exists_ensure_of_joinable h hne plan need
  exact .inl ⟨(), plan', run_ensure_iff.2 hplan'⟩

/-- The table of a path that can be followed is reached. -/
theorem exists_run_reach_of_joinable (hr : schema.resolve root path = .ok r)
    (h : schema.Joinable root path.parent) (plan : JoinPlan) :
    ∃ plan', (reach schema root r).run plan = .ok ((), plan') ∧
      (path.parent.segments = [] ∨ path.parent ∈ plan'.paths) := by
  have hjoinPath := (resolved_of_resolve hr).joinPath?
  unfold reach
  by_cases hempty : path.parent.segments = []
  · rw [if_pos hempty] at hjoinPath
    rw [hjoinPath]
    exact ⟨plan, rfl, .inl hempty⟩
  · rw [if_neg hempty] at hjoinPath
    rw [hjoinPath]
    obtain ⟨plan', hensure⟩ := exists_ensure_of_joinable h hempty plan .reading
    exact ⟨plan', run_ensure_iff.2 hensure, .inr (mem_paths_of_ensure hensure)⟩

end Planning

/-! ### Select lists and orders -/

section Lists

open Planning

variable {blamed : CompileDefect → Prop}
variable (hr : schema.resolve root path = .ok r) (h : schema.Joinable root path.parent)
include hr h

/-- The column of a field can be read in any plan. -/
theorem SelectList.exists_run_pathColumn (hfield : r.isField = true) (label : String)
    (plan : JoinPlan) :
    ∃ c plan', (pathColumn schema root path label).run plan = .ok (c, plan') := by
  obtain ⟨plan', hreach, hparent⟩ := exists_run_reach_of_joinable hr h plan
  obtain ⟨⟨column, type⟩, hcolumn⟩ := exists_column hr hparent fun a ha => by
    obtain ⟨f, hterminal⟩ := Resolution.isField_iff.1 hfield
    cases hterminal.symm.trans (Resolution.association?_eq_some_iff.1 ha)
  refine ⟨⟨column, label, type⟩, plan', ?_⟩
  unfold pathColumn
  rw [run_bind_of_ok (run_lift_iff.2 ⟨lift_eq_ok_iff.2 hr, rfl⟩), if_neg (by simp [hfield])]
  simp only [run_bind_iff, run_get_iff, run_lift_iff, run_pure_iff]
  exact ⟨(), plan', hreach, plan', plan', ⟨rfl, rfl⟩, (column, type), plan', ⟨hcolumn, rfl⟩, rfl, rfl⟩

/-- The value at the end of a path is found, or it is an association. -/
theorem SelectList.settles_pathColumn (label : String)
    (hblamed : r.isField = false → blamed (.notSelectable path)) :
    Settles blamed (pathColumn schema root path label) := by
  intro plan
  cases hfield : r.isField with
  | true => exact .inl (exists_run_pathColumn hr h hfield label plan)
  | false =>
    refine .inr ⟨.notSelectable path, ?_, hblamed hfield⟩
    unfold pathColumn
    rw [run_bind_of_ok (run_lift_iff.2 ⟨lift_eq_ok_iff.2 hr, rfl⟩), if_pos (by simp [hfield])]
    rfl

/-- A term of the order is found, or it is an association. -/
theorem Select.settles_orderTerm (direction : Direction)
    (hblamed : r.isField = false → blamed (.orderByAssociation path)) :
    Settles blamed (orderTerm schema root ⟨path, direction⟩) := by
  intro plan
  -- Only a field has a column to sort by; an association is what the caller is blamed for.
  cases hfield : r.isField with
  | true =>
    obtain ⟨plan', hreach, hparent⟩ := exists_run_reach_of_joinable hr h plan
    obtain ⟨⟨column, type⟩, hcolumn⟩ := exists_column hr hparent fun a ha => by
      obtain ⟨f, hterminal⟩ := Resolution.isField_iff.1 hfield
      cases hterminal.symm.trans (Resolution.association?_eq_some_iff.1 ha)
    exact .inl ⟨(column, direction), plan',
      run_orderTerm_iff.2 ⟨r, hr, hfield, hreach, ⟨type, hcolumn⟩, rfl⟩⟩
  | false =>
    refine .inr ⟨.orderByAssociation path, ?_, hblamed hfield⟩
    unfold orderTerm
    rw [run_bind_of_ok (run_lift_iff.2 ⟨lift_eq_ok_iff.2 hr, rfl⟩), if_pos (by simp [hfield])]
    rfl

end Lists

namespace SelectList

open Planning

/-- An association is read with its record where the plan loads it, and by its key elsewhere. -/
theorem exists_run_associationColumns_of_plan (a : Association) (plan : JoinPlan) :
    ∃ list plan', (associationColumns schema root false a).run plan = .ok (list, plan') := by
  by_cases hloaded : (plan.find? (.single a.name)).any (·.fetch) = true
  · -- The path is joined already, so it is found again.
    obtain ⟨join, hfind, _⟩ := Option.any_eq_true _ _ |>.1 hloaded
    obtain ⟨hjoin, hpath⟩ := mem_of_find? hfind
    obtain ⟨last, hlast⟩ : ∃ last, plan.ensure schema root .fetching (.single a.name) = .ok last :=
      exists_ensure_of_joined (mem_paths.2 ⟨join, hjoin, hpath⟩) .fetching
    obtain ⟨join', hfind', _⟩ := (grows_of_ensure hlast).find?_stays hfind
    refine ⟨⟨fieldColumns join'.table (a.name ++ ".") join'.target ++
      join'.target.associations.filterMap (keyColumn join'.table (a.name ++ ".")), [a.name]⟩, last,
      run_bind_iff.2 ⟨plan, plan, run_get_iff.2 ⟨rfl, rfl⟩, ?_⟩⟩
    rw [if_pos hloaded]
    refine run_bind_iff.2 ⟨(), last, run_ensure_iff.2 hlast, ?_⟩
    refine run_bind_iff.2 ⟨last, last, run_get_iff.2 ⟨rfl, rfl⟩, ?_⟩
    rw [hfind']
    exact run_pure_iff.2 ⟨rfl, rfl⟩
  · refine ⟨⟨(keyColumn 0 "" a).toList, []⟩, plan,
      run_bind_iff.2 ⟨plan, plan, run_get_iff.2 ⟨rfl, rfl⟩, ?_⟩⟩
    rw [if_neg hloaded]
    exact run_pure_iff.2 ⟨rfl, rfl⟩

variable {blamed : CompileDefect → Prop}

/-- Reading a record settles, since it only joins what the caller had joined. -/
theorem settles_ofEntity : Settles blamed (ofEntity schema root false) :=
  (Settles.mapM fun a _ => settles_of_exists (exists_run_associationColumns_of_plan a)).bind
    fun _ => settles_pure _

/-- What a parameter of a constructor stands for is a field. -/
theorem endsInField_of_parameterPath? {parameter : String}
    (h : parameterPath? schema root parameter = some path) : schema.EndsInField root path := by
  unfold parameterPath? at h
  dsimp only at h
  -- The dotted path first, then the longest match of the parameter's words: each is taken only as a field.
  split at h
  · rename_i hdirect
    cases h
    exact any_toOption_iff.1 hdirect
  · split at h
    · split at h <;> cases h
      rename_i hmatched
      rw [Bool.and_eq_true] at hmatched
      exact any_toOption_iff.1 hmatched.2
    · cases h

variable (hschema : schema.Checked)
include hschema

/-- The columns of a constructor can always be chosen. -/
theorem settles_ofConstructor (hroot : root ∈ schema.entities) (shape : Constructor) :
    Settles blamed (ofConstructor schema root shape) := by
  unfold ofConstructor
  refine Settles.bind (Settles.mapM fun b hb => ?_) fun columns => ?_
  · obtain ⟨parameter, _, hb⟩ := List.mem_filterMap.1 hb
    obtain ⟨path, hpath, rfl⟩ := Option.map_eq_some_iff.1 hb
    obtain ⟨r, hr, hfield⟩ := endsInField_of_parameterPath? hpath
    exact settles_of_exists
      (exists_run_pathColumn hr (Schema.joinable_parent hschema hroot hr) hfield parameter)
  -- Without any column the identifier is read, which every registered entity has.
  · obtain ⟨key, hkey⟩ := hschema.keys root hroot
    split
    · rw [hkey]
      exact settles_pure _
    · exact settles_pure _

/-- **The columns of a sound query** are chosen, unless an association is among them. -/
theorem settles_ofQuery {q : Query} (h : q.Sound schema) :
    Settles (q.Blames schema) (ofQuery schema q) := by
  -- A written selection can only fail by naming an association.
  have hwritten : Settles (q.Blames schema) (ofSelections schema q.entity q.selections) := by
    refine Settles.bind (Settles.mapM fun s hs => ?_) fun _ => settles_pure _
    obtain ⟨r, hr⟩ := h.selections s hs
    exact settles_pathColumn hr (Schema.joinable_parent hschema h.registered hr) s.label
      fun hfield => .selected hs ⟨r, hr, hfield⟩
  rcases h.target with hentity | ⟨shape, hconstructor⟩ | hselections
  · rw [ofQuery, hentity]
    exact settles_ofEntity
  · rw [ofQuery, hconstructor]
    dsimp only
    split
    · exact settles_ofConstructor hschema h.registered shape
    · exact hwritten
  · rw [hselections]
    exact hwritten

end SelectList

namespace Select

open Planning

variable (hschema : schema.Checked)
include hschema

/-- **The order of a sound query** is found, unless it names an association. -/
theorem settles_orderTerms {q : Query} (h : q.Sound schema) :
    Settles (q.Blames schema) (orderTerms schema q.entity q.order) := by
  unfold orderTerms
  split
  · obtain ⟨key, hkey⟩ := hschema.keys q.entity h.registered
    rw [hkey]
    exact settles_pure _
  · refine Settles.mapM fun d hd => ?_
    obtain ⟨r, hr⟩ := h.order d hd
    exact settles_orderTerm hr (Schema.joinable_parent hschema h.registered hr) d.direction
      fun hfield => .sorted hd ⟨r, hr, hfield⟩

/-- **The joins of a sound query** can be planned. -/
theorem settles_planJoins {q : Query} (h : q.Sound schema) {blamed : CompileDefect → Prop} :
    Settles blamed (planJoins schema q) := by
  unfold planJoins
  refine Settles.bind (Settles.forM fun request hrequest => ?_) fun _ =>
    Settles.forM fun c hc => ?_
  · obtain ⟨hne, hjoinable⟩ := h.joins request hrequest
    exact settles_ensure hjoinable hne _
  · cases hp : q.predicate with
    | none =>
      rw [hp] at hc
      cases hc
    | some p =>
      rw [hp] at hc
      -- A comparison is one of the tests, so its path can be followed.
      have hpath : (c.path, c.operator) ∈ p.tests.map fun t => (t.path, t.operator) := by
        rw [Predicate.map_tests p true]
        exact List.mem_map_of_mem hc
      obtain ⟨t, ht, heq⟩ := List.mem_map.1 hpath
      obtain ⟨r, hr, _⟩ := (h.tests p hp t ht).resolves
      rw [(Prod.mk.inj heq).1] at hr
      have hjoinPath := (resolved_of_resolve hr).joinPath?
      intro plan
      rw [run_bind_of_ok (run_lift_iff.2 ⟨lift_eq_ok_iff.2 hr, rfl⟩), hjoinPath]
      by_cases hempty : c.path.parent.segments = []
      · rw [if_pos hempty]
        exact settles_pure () plan
      · rw [if_neg hempty]
        exact settles_ensure (Schema.joinable_parent hschema h.registered hr) hempty _ plan

end Select

/-! ### Conditions -/

/-- The tests of a predicate compare its paths. -/
theorem Predicate.path_mem_of_tests {p : Predicate} {t : Predicate.Test} (h : t ∈ p.tests) :
    t.path ∈ p.paths := by
  induction p with
  | comparison => exact List.mem_singleton.2 (congrArg Test.path (List.mem_singleton.1 h))
  | and l r ihl ihr | or l r ihl ihr => exact List.mem_append.2 ((List.mem_append.1 h).imp ihl ihr)

/-- A comparison that has the operand it needs is a condition. -/
theorem Condition.exists_ofComparison? {κ : Type} (c : κ) {operator : Operator} {operand : Operand}
    (h : operator.arity = 1 → operand ≠ .none) :
    ∃ condition, ofComparison? c operator operand = some condition := by
  cases operand with
  | none =>
    cases operator <;> first | exact ⟨_, rfl⟩ | exact absurd rfl (h rfl)
  | slot s => cases operator <;> exact ⟨_, rfl⟩
  | literal v =>
    cases operator
    case isIn => cases v <;> exact ⟨_, rfl⟩
    all_goals exact ⟨_, rfl⟩

/-- A predicate is a condition if its paths have columns and its operators have their operands. -/
theorem Condition.exists_ofPredicate {ε κ : Type} {column : Path → Except ε κ}
    {noOperand : Path → Operator → ε} {p : Predicate}
    (h : ∀ t ∈ p.tests, (∃ c, column t.path = .ok c) ∧
      (t.operator.arity = 1 → t.operand ≠ .none)) :
    ∃ condition, ofPredicate column noOperand p = .ok condition := by
  induction p with
  | comparison path operator operand =>
    obtain ⟨⟨c, hc⟩, hoperand⟩ := h ⟨path, operator, operand⟩ (List.mem_singleton_self _)
    obtain ⟨condition, hcondition⟩ := exists_ofComparison? c hoperand
    refine ⟨condition, ?_⟩
    rw [ofPredicate, hc, ok_bind, hcondition]
    rfl
  -- Both connectives ask the same of their sides.
  | and l r ihl ihr | or l r ihl ihr =>
    rw [Predicate.tests, List.forall_mem_append] at h
    obtain ⟨left, hleft⟩ := ihl h.1
    obtain ⟨right, hright⟩ := ihr h.2
    rw [ofPredicate, hleft, ok_bind, hright, ok_bind]
    exact ⟨_, rfl⟩

/-! ### Whole queries -/

namespace Query.Sound

open Planning Select

variable {q : Query} (hschema : schema.Checked) (h : q.Sound schema)
include hschema h

omit hschema in
/-- The condition of a sound query is found once its joins are planned. -/
theorem exists_condition {deciding final : JoinPlan}
    (hjoins : (planJoins schema q).run {} = .ok ((), deciding))
    (hreads : Reads schema q.entity deciding final) :
    ∃ condition, q.predicate.mapM (conditionOf schema q.entity final) = .ok condition := by
  have htests := h.tests
  cases hp : q.predicate with
  | none => exact ⟨none, rfl⟩
  | some p =>
    obtain ⟨condition, hcondition⟩ : ∃ condition, conditionOf schema q.entity final p = .ok condition := by
      refine Condition.exists_ofPredicate fun t ht => ?_
      have hsound := htests p hp t ht
      obtain ⟨r, hr, htoOne⟩ := hsound.resolves
      -- The table of a compared property is one of those that decide which rows there are.
      have hparent : t.path.parent.segments = [] ∨ t.path.parent ∈ deciding.paths := by
        by_cases hempty : t.path.parent.segments = []
        · exact .inl hempty
        · obtain ⟨j, hj, hpath, _⟩ := exists_deciding (run_planJoins hjoins) hp
            (Predicate.path_mem_of_tests ht) hr hempty
          exact .inr (mem_paths.2 ⟨j, hj, hpath⟩)
      obtain ⟨x, hx⟩ := exists_column hr hparent htoOne
      refine ⟨⟨x.1, ?_⟩, hsound.operand⟩
      rw [hreads.column_stays hx]
      rfl
    exact ⟨some condition, mapM_eq_ok_iff.2 (.inr ⟨p, condition, rfl, rfl, hcondition⟩)⟩

/-- **A sound query is planned**, or an association is asked for its value. -/
theorem planned_or_blames :
    (∃ s, Select.ofQuery schema q = .ok s) ∨
      ∃ e, Select.ofQuery schema q = .error e ∧ q.Blames schema e := by
  have hsteps : Settles (q.Blames schema) (do
      planJoins schema q
      let list ← SelectList.ofQuery schema q
      let order ← orderTerms schema q.entity q.order
      return (list, order)) :=
    (settles_planJoins hschema h).bind fun _ =>
      (SelectList.settles_ofQuery hschema h).bind fun list =>
        (settles_orderTerms hschema h).bind fun order => settles_pure (list, order)
  -- Behind the three steps only the condition and the key are left, and a sound query has both.
  rcases hsteps {} with ⟨⟨list, order⟩, final, hrun⟩ | ⟨e, hrun, he⟩
  · left
    simp only [run_bind_iff, run_pure_iff, Prod.mk.injEq] at hrun
    obtain ⟨_, deciding, hjoins, _, middle, hlist, _, _, horder, ⟨rfl, rfl⟩, rfl⟩ := hrun
    have hreads := (SelectList.run_ofQuery hlist).1.trans (run_orderTerms horder).1
    obtain ⟨condition, hcondition⟩ := h.exists_condition hjoins hreads
    exact exists_ofQuery_of_runs hjoins hlist horder hcondition
      fun _ => hschema.keys q.entity h.registered
  · refine .inr ⟨e, ?_, he⟩
    unfold Select.ofQuery
    rw [hrun]
    rfl

/-- **A sound query compiles**, or an association is asked for its value. -/
theorem compiles_or_blames :
    (∃ c, q.compile schema = .ok c) ∨ ∃ e, q.compile schema = .error e ∧ q.Blames schema e := by
  unfold Query.compile
  rcases h.planned_or_blames hschema with ⟨s, hs⟩ | ⟨e, hs, he⟩
  · rw [hs]
    exact .inl ⟨_, rfl⟩
  · rw [hs]
    exact .inr ⟨e, rfl, he⟩

/-- **A sound query that asks for fields only compiles.** -/
theorem compiles (hselections : ∀ s ∈ q.selections, ¬schema.EndsInAssociation q.entity s.path)
    (horder : ∀ d ∈ q.order, ¬schema.EndsInAssociation q.entity d.path) :
    ∃ c, q.compile schema = .ok c := by
  refine (h.compiles_or_blames hschema).resolve_right ?_
  rintro ⟨_, _, hblames⟩
  cases hblames with
  | selected written association => exact hselections _ written association
  | sorted written association => exact horder _ written association

end Query.Sound

/-! ### Updates and deletes -/

/-- An update or delete whose names were all found and that stays within its table. -/
structure BulkQuery.Sound (schema : Schema) (q : BulkQuery) : Prop where
  assigns : q.mutation ≠ .update []
  tests : ∀ p ∈ q.predicate, ∀ t ∈ p.tests, t.Sound schema q.entity ∧
    ∀ r, schema.resolve q.entity t.path = .ok r → r.crossesAssociation = false

/-- **A sound update or delete compiles.** -/
theorem BulkQuery.Sound.compiles {q : BulkQuery} (h : q.Sound schema) :
    ∃ s, q.compile schema = .ok s := by
  obtain ⟨mutation, hmutation⟩ :
      ∃ fragments, mutationFragments q.entity.table q.mutation = .ok fragments := by
    have hassigns := h.assigns
    cases hm : q.mutation with
    | delete => exact ⟨_, rfl⟩
    | update assignments =>
      cases assignments with
      | nil => exact absurd hm hassigns
      | cons a more => exact ⟨_, rfl⟩
  obtain ⟨condition, hcondition⟩ :
      ∃ condition, q.predicate.mapM (BulkQuery.conditionOf schema q.entity) = .ok condition := by
    have htests := h.tests
    cases hp : q.predicate with
    | none => exact ⟨none, rfl⟩
    | some p =>
      obtain ⟨condition, hcondition⟩ :
          ∃ condition, BulkQuery.conditionOf schema q.entity p = .ok condition := by
        refine Condition.exists_ofPredicate fun t ht => ?_
        obtain ⟨hsound, hown⟩ := htests p hp t ht
        obtain ⟨r, hr, htoOne⟩ := hsound.resolves
        refine ⟨?_, hsound.operand⟩
        -- A field has a column, and so has an association to one record that is tested for absence.
        cases hterminal : r.terminal with
        | field f => exact ⟨f.column, column_eq_ok_iff.2 ⟨r, hr, hown r hr, .inl ⟨f, hterminal, rfl⟩⟩⟩
        | association a =>
          obtain ⟨name, hname⟩ := Option.isSome_iff_exists.1
            (htoOne a (Resolution.association?_eq_some_iff.2 hterminal))
          exact ⟨name, column_eq_ok_iff.2 ⟨r, hr, hown r hr, .inr ⟨a, hterminal, hname⟩⟩⟩
      exact ⟨some condition, mapM_eq_ok_iff.2 (.inr ⟨p, condition, rfl, rfl, hcondition⟩)⟩
  unfold BulkQuery.compile
  rw [hmutation, ok_bind, hcondition]
  exact ⟨_, rfl⟩

end EntityQuery
