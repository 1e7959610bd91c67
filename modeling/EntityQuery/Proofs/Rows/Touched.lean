import EntityQuery.Proofs.Plan.Acceptance
import EntityQuery.Proofs.Rows.Selected
import EntityQuery.Proofs.Statement.Holes

namespace EntityQuery

open JoinPlan

/-!
# Touched rows

An update or delete touches the rows that the count over the same predicate counts.  A select finds
its columns in the tables of a plan and an update or delete in its one table, but over paths that stay
in the root both find the same ones (`Select.column_eq_of_stays`), so that the two conditions are one
condition with other names for its columns (`Select.conditionOf_eq_of_stays`).  No table is joined for
such a count, and nothing else of it can go wrong (`Select.ofQuery_counting`).

`delete_touches_counted` draws the conclusion for statements and for rows.
-/

/-! ### Conditions over renamed columns -/

namespace Condition

variable {ε κ κ' : Type}

/-- The condition over other columns in the places of its own. -/
def map (f : κ → κ') : Condition κ → Condition κ'
  | .isNull column => .isNull (f column)
  | .isNotNull column => .isNotNull (f column)
  | .compare column operator term => .compare (f column) operator term
  | .member column terms => .member (f column) terms
  | .and l r => .and (l.map f) (r.map f)
  | .or l r => .or (l.map f) (r.map f)

/-- Renaming the columns of a condition renames them in its fragments. -/
theorem fragments_map (f : κ → κ') (name : κ' → String) (condition : Condition κ) :
    (condition.map f).fragments name = condition.fragments (name ∘ f) := by
  induction condition with
  | and l r ihl ihr | or l r ihl ihr => rw [map, fragments, fragments, ihl, ihr]
  | _ => rfl

/-- And it means the same of the renamed columns. -/
theorem eval_map (M : Meaning) (f : κ → κ') (value : κ' → Stored) (condition : Condition κ) :
    (condition.map f).eval M value = condition.eval M (value ∘ f) := by
  induction condition with
  | and l r ihl ihr | or l r ihl ihr => rw [map, eval, eval, ihl, ihr]
  | _ => rfl

/-- A comparison is compiled the same for renamed columns. -/
theorem ofComparison?_map (f : κ → κ') (column : κ) (operator : Operator) (operand : Operand) :
    ofComparison? (f column) operator operand =
      (ofComparison? column operator operand).map (map f) := by
  cases operand with
  | none | slot s => cases operator <;> rfl
  | literal v =>
    cases operator
    case isIn => cases v <;> rfl
    all_goals rfl

/-- **Renaming the columns that are found** renames those of the condition, and the same predicates
    have none. -/
theorem ofPredicate_map (f : κ → κ') (column : Path → Except ε κ) (noOperand : Path → Operator → ε)
    (p : Predicate) :
    ofPredicate (fun path => (column path).map f) noOperand p =
      (ofPredicate column noOperand p).map (map f) := by
  induction p with
  | comparison path operator operand =>
    rw [ofPredicate, ofPredicate]
    -- The column is found or not before it is renamed.
    cases column path with
    | error e => rfl
    | ok c =>
      have hrenamed : (Except.ok c : Except ε κ).map f = .ok (f c) := rfl
      rw [hrenamed, ok_bind, ok_bind, ofComparison?_map]
      cases ofComparison? c operator operand <;> rfl
  | and l r ihl ihr | or l r ihl ihr =>
    rw [ofPredicate, ofPredicate, ihl, ihr]
    cases ofPredicate column noOperand l with
    | error e => rfl
    | ok left => cases ofPredicate column noOperand r <;> rfl

/-- A predicate that is a condition has a column for each of its paths. -/
theorem exists_column {column : Path → Except ε κ} {noOperand : Path → Operator → ε} {p : Predicate}
    {condition : Condition κ} (h : ofPredicate column noOperand p = .ok condition) :
    ∀ path ∈ p.paths, ∃ c, column path = .ok c := by
  induction p generalizing condition with
  | comparison path operator operand =>
    rw [ofPredicate] at h
    obtain ⟨c, hc, _⟩ := bind_eq_ok_iff.1 h
    exact List.forall_mem_singleton.2 ⟨c, hc⟩
  | and l r ihl ihr | or l r ihl ihr =>
    rw [ofPredicate] at h
    obtain ⟨left, hleft, h⟩ := bind_eq_ok_iff.1 h
    obtain ⟨right, hright, _⟩ := bind_eq_ok_iff.1 h
    exact List.forall_mem_append.2 ⟨ihl hleft, ihr hright⟩

end Condition

variable {schema : Schema} {root : Entity} {p : Predicate} {path : Path}

/-! ### Paths that stay in their root -/

/-- Whether a path can be followed and leads over an association. -/
def Schema.crosses (schema : Schema) (root : Entity) (path : Path) : Bool :=
  (schema.resolve root path).toOption.any (·.crossesAssociation)

/-- The predicate compares properties of the root itself, as far as its paths can be followed. -/
def Predicate.Stays (schema : Schema) (root : Entity) (p : Predicate) : Prop :=
  ∀ path ∈ p.paths, schema.crosses root path = false

instance (p : Predicate) : Decidable (p.Stays schema root) :=
  inferInstanceAs (Decidable (∀ path ∈ p.paths, schema.crosses root path = false))

/-- A path crosses an association exactly if what it is resolved to does. -/
theorem Schema.crosses_of_resolve {r : Resolution} (hr : schema.resolve root path = .ok r) :
    schema.crosses root path = r.crossesAssociation := by
  rw [crosses, hr]
  rfl

/-- A path that stays needs no join. -/
theorem Resolution.joinPath?_of_stays {r : Resolution} (h : r.crossesAssociation = false) :
    r.joinPath? = none := by
  have hhops : r.hops.isEmpty = true := by simpa [crossesAssociation] using h
  rw [joinPath?, if_pos hhops]

/-- An update or delete has no column for a path over an association. -/
theorem BulkQuery.column_ne_ok (h : schema.crosses root path = true) (name : String) :
    BulkQuery.column schema root path ≠ .ok name := by
  intro hname
  obtain ⟨r, hr, hstays, _⟩ := BulkQuery.column_eq_ok_iff.1 hname
  rw [Schema.crosses_of_resolve hr, hstays] at h
  cases h

namespace Select

/-- **The same column.**  Before anything is joined, a select finds the column of a path that stays in
    the root where an update or delete finds it, or neither finds one. -/
theorem column_eq_of_stays (h : schema.crosses root path = false) :
    (do return (← JoinPlan.column schema root {} path).1 : Except CompileDefect Column) =
      (BulkQuery.column schema root path).map (Column.mk 0) := by
  unfold JoinPlan.column BulkQuery.column
  cases hr : schema.resolve root path with
  | error defect => rfl
  | ok r =>
    have hstays : r.crossesAssociation = false := (Schema.crosses_of_resolve hr).symm.trans h
    -- The path has no hops, so its column is in the root's table.
    have htable : JoinPlan.table {} path.parent = .ok 0 := by
      have hparent : path.parent.segments = [] := by
        have hhops : r.hops.isEmpty = true := by simpa [Resolution.crossesAssociation] using hstays
        rw [← List.length_eq_zero_iff, ← (resolved_of_resolve hr).hops, List.length_eq_zero_iff]
        exact List.isEmpty_iff.1 hhops
      rw [JoinPlan.table, hparent]
      rfl
    simp only [liftM, monadLift, MonadLift.monadLift, Except.mapError, ok_bind, htable, hstays]
    cases r.terminal with
    | field f => rfl
    | association a =>
      dsimp only
      cases a.joinColumn? <;> rfl

/-- So a whole condition that stays is the same over the root alone. -/
theorem conditionOf_eq_of_stays (h : p.Stays schema root) :
    conditionOf schema root {} p =
      (BulkQuery.conditionOf schema root p).map (Condition.map (Column.mk 0)) := by
  rw [conditionOf, ofPredicate_congr fun path hpath => column_eq_of_stays (h path hpath)]
  exact Condition.ofPredicate_map _ _ _ p

end Select

/-! ### Counts -/

/-- The count of the rows of an entity that a predicate holds of. -/
def Query.counting (root : Entity) (p : Predicate) : Query where
  entity := root
  shape := .count
  predicate := some p

/-- The delete of these rows. -/
def BulkQuery.deleting (root : Entity) (p : Predicate) : BulkQuery where
  entity := root
  mutation := .delete
  predicate := some p

/-- The rows of a table that an update or delete with the condition touches. -/
def Condition.touched (M : Meaning) (condition : Condition String) (rows : List TableRow) :
    List TableRow :=
  rows.filter fun row => condition.eval M row = .yes

/-- Work item by item that leaves the plan alone each time. -/
theorem Planning.run_forM_of_still {β : Type} {f : β → Planning Unit} {items : List β}
    {plan : JoinPlan} (h : ∀ b ∈ items, (f b).run plan = .ok ((), plan)) :
    (items.forM f).run plan = .ok ((), plan) := by
  induction items with
  | nil => rfl
  | cons item items ih =>
    rw [List.forall_mem_cons] at h
    exact run_bind_iff.2 ⟨(), plan, h.1, ih h.2⟩

/-- Steps that leave the plan alone do so over a list. -/
theorem Planning.run_mapM_of_still {α β : Type} {f : β → Planning α} {g : β → α} {plan : JoinPlan}
    (items : List β) (h : ∀ b, (f b).run plan = .ok (g b, plan)) :
    (items.mapM f).run plan = .ok (items.map g, plan) := by
  induction items with
  | nil => rfl
  | cons item items ih =>
    rw [List.mapM_cons]
    exact run_bind_iff.2 ⟨g item, plan, h item,
      run_bind_iff.2 ⟨items.map g, plan, ih, run_pure_iff.2 ⟨rfl, rfl⟩⟩⟩

namespace Select

open Planning

/-- A predicate that stays in the root needs no join. -/
theorem run_planJoins_counting
    (h : ∀ path ∈ p.paths, ∃ r, schema.resolve root path = .ok r ∧ r.crossesAssociation = false) :
    (planJoins schema (.counting root p)).run {} = .ok ((), {}) := by
  refine run_bind_iff.2 ⟨(), {}, rfl, run_forM_of_still fun c hc => ?_⟩
  have hpath : c.path ∈ p.paths := by
    rw [← map_path_comparisonsWhen p true]
    exact List.mem_map_of_mem hc
  obtain ⟨r, hr, hstays⟩ := h c.path hpath
  refine run_bind_iff.2 ⟨r, {}, run_lift_iff.2 ⟨lift_eq_ok_iff.2 hr, rfl⟩, ?_⟩
  rw [Resolution.joinPath?_of_stays hstays]
  rfl

/-- The select list of a count joins nothing either, though it is never read. -/
theorem exists_run_list_counting (schema : Schema) (root : Entity) (p : Predicate) :
    ∃ list, (SelectList.ofQuery schema (.counting root p)).run {} = .ok (list, {}) := by
  have hkeys : ∀ a : Association, (SelectList.associationColumns schema root false a).run {} =
      .ok (⟨(SelectList.keyColumn 0 "" a).toList, []⟩, {}) := fun a => rfl
  show ∃ list, (SelectList.ofEntity schema root false).run {} = .ok (list, {})
  exact ⟨_, run_bind_iff.2 ⟨_, {}, run_mapM_of_still _ hkeys, run_pure_iff.2 ⟨rfl, rfl⟩⟩⟩

/-- **A count over the root alone** joins nothing, and all that can go wrong with it is its
    condition. -/
theorem ofQuery_counting {key : String} (hkey : root.idColumn = .ok key)
    (h : ∀ path ∈ p.paths, ∃ r, schema.resolve root path = .ok r ∧ r.crossesAssociation = false) :
    ∃ list, Select.ofQuery schema (.counting root p) =
      (conditionOf schema root {} p).map fun condition =>
        ⟨root, {}, list, some condition, [(⟨0, key⟩, .ascending)], none⟩ := by
  obtain ⟨list, hlist⟩ := exists_run_list_counting schema root p
  have horder : (orderTerms schema root []).run {} =
      .ok ([((⟨0, key⟩ : Column), Direction.ascending)], {}) := by
    rw [orderTerms, hkey]
    rfl
  -- Nothing is joined, so all three steps run in the empty plan.
  have hrun : StateT.run (do
      planJoins schema (.counting root p)
      let list ← SelectList.ofQuery schema (.counting root p)
      let order ← orderTerms schema (Query.counting root p).entity (Query.counting root p).order
      return (list, order)) {} =
        Except.ok ((list, [((⟨0, key⟩ : Column), Direction.ascending)]), {}) := by
    simp only [run_bind_iff, run_pure_iff]
    exact ⟨(), {}, run_planJoins_counting h, list, {}, hlist, _, {}, horder, rfl, rfl⟩
  refine ⟨list, ?_⟩
  unfold Select.ofQuery
  rw [hrun, ok_bind]
  dsimp only [Query.counting]
  rw [Option.mapM_some]
  cases conditionOf schema root {} p <;> rfl

/-- The condition of such a count is that of an update or delete, over the root's own columns. -/
theorem condition_of_counting {key : String} (hkey : root.idColumn = .ok key)
    (h : p.Stays schema root) {s : Select} (hs : Select.ofQuery schema (.counting root p) = .ok s) :
    ∃ condition, BulkQuery.conditionOf schema root p = .ok condition ∧ s.root = root ∧
      s.plan = {} ∧ s.condition = some (condition.map (Column.mk 0)) ∧ s.distinctKey = none := by
  -- A compiled condition has resolved all its paths.
  have hresolves : ∀ path ∈ p.paths, ∃ r,
      schema.resolve root path = .ok r ∧ r.crossesAssociation = false := by
    obtain ⟨made, hmade⟩ : ∃ made, conditionOf schema root s.plan p = .ok made := by
      rcases mapM_eq_ok_iff.1 (plannedFor_of_ofQuery hs).condition with ⟨hnone, _⟩ | ⟨_, made, hp, _, hmade⟩
      · cases hnone
      · cases hp
        exact ⟨made, hmade⟩
    intro path hpath
    obtain ⟨c, hc⟩ := Condition.exists_column hmade path hpath
    obtain ⟨⟨column, type⟩, hcolumn, _⟩ := bind_eq_ok_iff.1 hc
    obtain ⟨r, hr, _⟩ := column_eq_ok hcolumn
    exact ⟨r, hr, (Schema.crosses_of_resolve hr).symm.trans (h path hpath)⟩
  obtain ⟨list, hquery⟩ := ofQuery_counting hkey hresolves
  rw [hquery, conditionOf_eq_of_stays h] at hs
  cases hcondition : BulkQuery.conditionOf schema root p with
  | error e =>
    rw [hcondition] at hs
    cases hs
  | ok condition =>
    rw [hcondition] at hs
    cases hs
    exact ⟨condition, rfl, rfl, rfl, rfl, rfl⟩

/-- A predicate that an update or delete has a condition for can be counted. -/
theorem exists_counting {key : String} (hkey : root.idColumn = .ok key) (h : p.Stays schema root)
    {condition : Condition String} (hcondition : BulkQuery.conditionOf schema root p = .ok condition) :
    ∃ s, Select.ofQuery schema (.counting root p) = .ok s := by
  have hresolves : ∀ path ∈ p.paths, ∃ r,
      schema.resolve root path = .ok r ∧ r.crossesAssociation = false := by
    intro path hpath
    obtain ⟨name, hname⟩ := Condition.exists_column hcondition path hpath
    obtain ⟨r, hr, hstays, _⟩ := BulkQuery.column_eq_ok_iff.1 hname
    exact ⟨r, hr, hstays⟩
  obtain ⟨list, hquery⟩ := ofQuery_counting hkey hresolves
  rw [hquery, conditionOf_eq_of_stays h, hcondition]
  exact ⟨_, rfl⟩

/-! ### What a count over the root alone stands for -/

section Rows

variable {s : Select} {condition : Condition String} (hplan : s.plan = {})
  (hcondition : s.condition = some (condition.map (Column.mk 0)))
include hplan hcondition

/-- The counting statement names the columns of the root. -/
theorem count_of_root (hplain : s.distinctKey = none) :
    s.count = .ofFragments (.sql ("SELECT COUNT(*) FROM " ++ s.root.table ++ " t0") ::
      Condition.whereFragments ("t0." ++ ·) (some condition)) := by
  have hname : Column.text ∘ Column.mk 0 = ("t0." ++ ·) :=
    funext fun name => congrArg (· ++ name) (by decide : tableAlias 0 ++ "." = "t0.")
  have hhead : "SELECT " ++ "COUNT(*)" ++ " FROM " ++ s.root.table ++ " " ++ tableAlias 0 ++
      JoinPlan.text {} = "SELECT COUNT(*) FROM " ++ s.root.table ++ " t0" := by
    rw [String.append_assoc, String.append_assoc, String.append_assoc]
    rfl
  rw [count, hplain, statement, hplan, hcondition]
  dsimp only [JoinPlan.filtering]
  rw [List.filter_nil, hhead, List.append_nil, Condition.whereFragments, Condition.fragments_map,
    hname]
  rfl

/-- **The rows that are counted are those that are touched.** -/
theorem roots_of_root (hplain : s.distinctKey = none) (M : Meaning) (db : Database schema) :
    s.roots M db s.plan.filtering = condition.touched M (db.rows s.root.table) ∧
      s.counted M db = (condition.touched M (db.rows s.root.table)).length := by
  -- The only table is the root, so the joined row is the row itself.
  have haccepts : s.accepts M ∘ JoinedRow.ofRoot =
      fun row => decide (condition.eval M row = .yes) := by
    funext row
    rw [Function.comp_apply, accepts, hcondition]
    dsimp only
    rw [Condition.eval_map]
    rfl
  have hrows : s.rows M db s.plan.filtering =
      (condition.touched M (db.rows s.root.table)).map JoinedRow.ofRoot := by
    rw [rows, hplan, Condition.touched, ← haccepts]
    exact List.filter_map
  constructor
  · rw [roots, hrows, List.filterMap_map]
    exact List.filterMap_some
  · rw [counted, hplain]
    dsimp only
    rw [hrows, List.length_map]

end Rows

end Select

/-! ### Deletes and counts -/

namespace BulkQuery

/-- A delete is its condition behind the table's name. -/
theorem compile_deleting :
    (deleting root p).compile schema = (conditionOf schema root p).map fun condition =>
      .ofFragments (.sql ("DELETE FROM " ++ root.table) ::
        Condition.whereFragments id (some condition)) := by
  unfold compile deleting
  dsimp only
  rw [mutationFragments, ok_bind, Option.mapM_some]
  cases conditionOf schema root p <;> rfl

/-- Over an association there is no update and no delete. -/
theorem exists_error_of_crosses (h : ∃ path ∈ p.paths, schema.crosses root path = true)
    {q : BulkQuery} (hentity : q.entity = root) (hpredicate : q.predicate = some p) :
    ∃ defect, q.compile schema = .error defect := by
  cases hcompile : q.compile schema with
  | error defect => exact ⟨defect, rfl⟩
  | ok statement =>
    obtain ⟨mutation, _, hrest⟩ := bind_eq_ok_iff.1 hcompile
    obtain ⟨condition, hcondition, _⟩ := bind_eq_ok_iff.1 hrest
    rw [hpredicate, hentity] at hcondition
    -- Had it compiled, the path that crosses would have a column.
    rcases mapM_eq_ok_iff.1 hcondition with ⟨hnone, _⟩ | ⟨_, made, hp, _, hmade⟩
    · cases hnone
    · cases hp
      obtain ⟨path, hpath, hcrosses⟩ := h
      obtain ⟨name, hname⟩ := Condition.exists_column hmade path hpath
      exact absurd hname (column_ne_ok hcrosses name)

end BulkQuery

/-- **A delete touches the rows that its count counts.**  Where the paths of a predicate stay in the
    root, its delete compiles exactly if its count does.  Both statements then have one condition, the
    count with `t0.` before each column, so that they take the same slots and values in the same order;
    and whatever is stored, the rows that the condition of the delete holds of are those that are
    counted.  Where a path leads over an association, no update or delete compiles. -/
theorem delete_touches_counted {entities : List Entity} (hbuild : Schema.build entities = .ok schema)
    (hroot : root ∈ schema.entities) (p : Predicate) :
    (p.Stays schema root →
      ((∃ statement, (BulkQuery.deleting root p).compile schema = .ok statement) ↔
        ∃ c, (Query.counting root p).compile schema = .ok c) ∧
      ∀ statement c, (BulkQuery.deleting root p).compile schema = .ok statement →
        (Query.counting root p).compile schema = .ok c →
        ∃ condition, BulkQuery.conditionOf schema root p = .ok condition ∧
          statement = .ofFragments (.sql ("DELETE FROM " ++ root.table) ::
            Condition.whereFragments id (some condition)) ∧
          c.content = .ofFragments (.sql ("SELECT COUNT(*) FROM " ++ root.table ++ " t0") ::
            Condition.whereFragments ("t0." ++ ·) (some condition)) ∧
          statement.holes = c.content.holes ∧
          ∃ s, Select.ofQuery schema (.counting root p) = .ok s ∧
            c = s.compiled (.counting root p) ∧ ∀ (M : Meaning) (db : Database schema),
              s.roots M db s.plan.filtering = condition.touched M (db.rows root.table) ∧
                s.counted M db = (condition.touched M (db.rows root.table)).length) ∧
    ((∃ path ∈ p.paths, schema.crosses root path = true) →
      ∀ q : BulkQuery, q.entity = root → q.predicate = some p →
        ∃ defect, q.compile schema = .error defect) := by
  obtain ⟨key, hkey⟩ := (Schema.checked_of_build hbuild).keys root hroot
  refine ⟨fun hstays => ⟨⟨?_, ?_⟩, ?_⟩, fun hcrosses q hentity hpredicate =>
    BulkQuery.exists_error_of_crosses hcrosses hentity hpredicate⟩
  · rintro ⟨statement, hstatement⟩
    rw [BulkQuery.compile_deleting] at hstatement
    obtain ⟨condition, hcondition⟩ : ∃ condition, BulkQuery.conditionOf schema root p =
        .ok condition := by
      cases hcondition : BulkQuery.conditionOf schema root p with
      | error e =>
        rw [hcondition] at hstatement
        cases hstatement
      | ok condition => exact ⟨condition, rfl⟩
    obtain ⟨s, hs⟩ := Select.exists_counting hkey hstays hcondition
    exact ⟨s.compiled (.counting root p), bind_eq_ok_iff.2 ⟨s, hs, rfl⟩⟩
  · rintro ⟨c, hc⟩
    obtain ⟨s, hs, _⟩ := bind_eq_ok_iff.1 hc
    obtain ⟨condition, hcondition, _⟩ := Select.condition_of_counting hkey hstays hs
    rw [BulkQuery.compile_deleting, hcondition]
    exact ⟨_, rfl⟩
  -- Both have compiled one condition, under two names of the same table.
  · intro statement c hstatement hc
    have hholes := BulkQuery.holes_compile hstatement
    obtain ⟨s, hs, hcompiled⟩ := bind_eq_ok_iff.1 hc
    obtain rfl := pure_eq_ok_iff.1 hcompiled
    obtain ⟨condition, hcondition, rfl, hplan, hmade, hplain⟩ :=
      Select.condition_of_counting hkey hstays hs
    rw [BulkQuery.compile_deleting, hcondition] at hstatement
    cases hstatement
    refine ⟨condition, hcondition, rfl, Select.count_of_root hplan hmade hplain, ?_, s, hs, rfl,
      Select.roots_of_root hplan hmade hplain⟩
    rw [hholes, Select.holes_compiled hs (.inl rfl)]
    rfl

/-- Members above an age who belong to no team. -/
def Sample.unattached : Predicate :=
  .and (.comparison ⟨["age"]⟩ .greaterThan (.literal (.integer 35)))
    (.comparison ⟨["team"]⟩ .isNull .none)

/-- Of the sample members one is unattached, which a delete of them touches; by the identifiers of
    their teams none can be deleted. -/
theorem delete_touches_counted_unattached :
    (∃ statement c, (BulkQuery.deleting Sample.member Sample.unattached).compile Sample.league =
        .ok statement ∧
      (Query.counting Sample.member Sample.unattached).compile Sample.league = .ok c ∧
      statement.holes = c.content.holes ∧
      ∃ (s : Select) (condition : Condition String),
        c = s.compiled (.counting Sample.member Sample.unattached) ∧
        s.counted Sample.meaning Sample.database = 1 ∧
        s.roots Sample.meaning Sample.database s.plan.filtering =
          condition.touched Sample.meaning (Sample.tables "member")) ∧
    ∃ defect, (BulkQuery.deleting Sample.member
      (.comparison ⟨["team", "id"]⟩ .equals (.literal (.integer 1)))).compile Sample.league =
        .error defect := by
  have hbuild : Schema.build [Sample.team, Sample.member] = .ok Sample.league := by decide
  have hroot : Sample.member ∈ Sample.league.entities := by decide
  constructor
  -- The predicate tests the association itself, which is a column of the member.
  · have hstays : Sample.unattached.Stays Sample.league Sample.member := by decide
    have hdeletes : ∃ statement, (BulkQuery.deleting Sample.member Sample.unattached).compile
        Sample.league = .ok statement := ⟨_, by rfl⟩
    obtain ⟨hiff, hsame⟩ := (delete_touches_counted hbuild hroot Sample.unattached).1 hstays
    obtain ⟨statement, hstatement⟩ := hdeletes
    obtain ⟨c, hc⟩ := hiff.1 ⟨statement, hstatement⟩
    obtain ⟨condition, hcondition, _, _, hholes, s, _, hcompiled, hrows⟩ :=
      hsame statement c hstatement hc
    obtain ⟨hroots, hcounted⟩ := hrows Sample.meaning Sample.database
    refine ⟨statement, c, hstatement, hc, hholes, s, condition, hcompiled, ?_, hroots⟩
    cases hcondition
    exact hcounted.trans (by decide)
  · exact (delete_touches_counted hbuild hroot _).2 (by decide) _ rfl rfl

end EntityQuery
