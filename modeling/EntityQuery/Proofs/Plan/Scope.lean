import EntityQuery.Proofs.Plan.Planning

namespace EntityQuery

open JoinPlan

/-!
# Scope of selects

A statement knows the root as `t0` and each table that it joins under a name of its own.  All three
statements of a select are well scoped (`compile_scoped`): the one that reads rows joins everything,
the ones that count and that ask for existence leave out the joins that only read, and still

* no name and no path is introduced twice,
* the condition of a join uses its own name and names introduced before it, and
* the select list, the condition and the order use introduced names only.

The reason is the order in which a query is planned: the deciding joins are all there before the
first join for reading, so they are well linked among themselves (`PlannedFor.planned_filtering`).
-/

/-! ### Names of tables -/

/-- Two tables have two names. -/
theorem tableAlias_injective {a b : Nat} (h : tableAlias a = tableAlias b) : a = b := by
  have hrepr : Nat.repr a = Nat.repr b := (String.append_right_inj "t").1 h
  have hdigits := congrArg String.toList hrepr
  rw [Nat.repr_eq_ofList_toDigits, Nat.repr_eq_ofList_toDigits, String.toList_ofList,
    String.toList_ofList] at hdigits
  rw [← Nat.ofDigitChars_ten_toDigits (n := a), hdigits, Nat.ofDigitChars_ten_toDigits]

/-- The names that the joins introduce, behind that of the root. -/
def JoinPlan.aliases (joins : List Join) : List String :=
  tableAlias 0 :: joins.map fun join => tableAlias join.table

/-- Every column of a condition. -/
def Condition.columns {κ : Type} : Condition κ → List κ
  | .isNull column | .isNotNull column | .compare column _ _ | .member column _ => [column]
  | .and l r | .or l r => l.columns ++ r.columns

/-- **Scoping of a statement** that joins the tables of a plan and uses some columns. -/
structure Scoped (plan : JoinPlan) (columns : List Column) : Prop where
  aliases_nodup : (aliases plan.joins).Nodup
  paths_nodup : (plan.joins.map Join.path).Nodup
  /-- A join condition compares a column of its own table with one of an earlier table. -/
  parents : ∀ before join after, plan.joins = before ++ join :: after →
    tableAlias join.parent ∈ aliases before
  columns : ∀ c ∈ columns, tableAlias c.table ∈ aliases plan.joins

variable {schema : Schema} {root : Entity} {plan : JoinPlan} {q : Query} {s : Select}

/-- A known table has a name. -/
theorem alias_mem_of_knows {table : Nat} (h : plan.Knows table) :
    tableAlias table ∈ aliases plan.joins := by
  rcases h with rfl | ⟨j, hj, rfl⟩
  · exact List.mem_cons_self
  · exact List.mem_cons_of_mem _ (List.mem_map_of_mem hj)

namespace JoinPlan.Planned

variable {joins : List Join}

/-- Names are introduced once, since tables are numbered from one on. -/
theorem aliases_nodup (h : Planned schema root joins) : (aliases joins).Nodup := by
  have hnames : aliases joins = (0 :: joins.map Join.table).map tableAlias := by
    rw [aliases, List.map_cons, List.map_map]
    rfl
  rw [hnames, h.map_table]
  refine List.Nodup.map (fun _ _ => tableAlias_injective) ?_
  exact List.nodup_range' (s := 0) (n := joins.length + 1)

/-- A join hangs on the root or on an earlier join. -/
theorem parent_knows {before after : List Join} {join : Join}
    (h : Planned schema root (before ++ join :: after)) :
    JoinPlan.Knows ⟨before⟩ join.parent := by
  have hfront : Planned schema root (before ++ [join]) := by
    refine of_append after ?_
    rw [List.append_assoc]
    exact h
  exact knows_of_table hfront.split.2.2.parent

/-- Well linked joins and known tables make a scoped statement. -/
theorem isScoped (h : Planned schema root plan.joins) {columns : List Column}
    (hcolumns : ∀ c ∈ columns, plan.Knows c.table) : Scoped plan columns where
  aliases_nodup := h.aliases_nodup
  paths_nodup := h.nodup_path
  parents before join after hjoins := by
    have hknows : JoinPlan.Knows ⟨before⟩ join.parent := parent_knows (hjoins ▸ h)
    exact alias_mem_of_knows hknows
  columns c hc := alias_mem_of_knows (hcolumns c hc)

end JoinPlan.Planned

/-! ### The statements of a select -/

/-- The columns of a condition are columns of its paths. -/
theorem exists_path_of_mem_columns {ε κ : Type} {column : Path → Except ε κ}
    {noOperand : Path → Operator → ε} {p : Predicate} {condition : Condition κ}
    (h : Condition.ofPredicate column noOperand p = .ok condition) {c : κ}
    (hc : c ∈ condition.columns) : ∃ path ∈ p.paths, column path = .ok c := by
  induction p generalizing condition with
  | comparison path operator operand =>
    rw [Condition.ofPredicate] at h
    obtain ⟨found, hfound, h⟩ := bind_eq_ok_iff.1 h
    -- A comparison has one column whatever its operator.
    have hcolumns : condition.columns = [found] := by
      split at h
      · rename_i made hmade
        obtain rfl := pure_eq_ok_iff.1 h
        unfold Condition.ofComparison? at hmade
        split at hmade <;> cases hmade <;> rfl
      · exact absurd h throw_ne_ok
    rw [hcolumns, List.mem_singleton] at hc
    exact ⟨path, List.mem_singleton_self path, hc ▸ hfound⟩
  | and l r ihl ihr | or l r ihl ihr =>
    rw [Condition.ofPredicate] at h
    simp only [bind_eq_ok_iff, pure_eq_ok_iff] at h
    obtain ⟨left, hleft, right, hright, rfl⟩ := h
    rcases List.mem_append.1 hc with hc | hc
    · obtain ⟨path, hpath, hcolumn⟩ := ihl hleft hc
      exact ⟨path, List.mem_append_left _ hpath, hcolumn⟩
    · obtain ⟨path, hpath, hcolumn⟩ := ihr hright hc
      exact ⟨path, List.mem_append_right _ hpath, hcolumn⟩

/-- The columns of an optional condition. -/
def Select.conditionColumns (s : Select) : List Column :=
  (s.condition.map Condition.columns).getD []

/-- The columns of a condition are in tables of the plan. -/
theorem knows_conditionColumns
    (h : q.predicate.mapM (Select.conditionOf schema q.entity plan) = .ok s.condition) :
    ∀ c ∈ s.conditionColumns, plan.Knows c.table := by
  unfold Select.conditionColumns
  rcases mapM_eq_ok_iff.1 h with ⟨_, hnone⟩ | ⟨p, condition, _, hsome, hcondition⟩
  · rw [hnone]
    exact nofun
  · rw [hsome]
    intro c hc
    obtain ⟨path, _, hcolumn⟩ := exists_path_of_mem_columns hcondition hc
    simp only [bind_eq_ok_iff, pure_eq_ok_iff] at hcolumn
    obtain ⟨found, hfound, rfl⟩ := hcolumn
    exact knows_of_column hfound

namespace Select.PlannedFor

/-- The statement that reads rows joins everything, so it knows every table that was reached. -/
theorem scoped_content (h : PlannedFor schema q s) :
    Scoped s.plan (s.list.columns.map SelectColumn.column ++ s.conditionColumns ++
      s.order.map Prod.fst) := by
  refine h.planned.isScoped ?_
  rw [List.forall_mem_append, List.forall_mem_append, List.forall_mem_map, List.forall_mem_map]
  exact ⟨⟨h.list, knows_conditionColumns h.condition⟩, h.order⟩

/-- Without the joins for reading, the condition still finds its tables. -/
theorem scoped_existence (h : PlannedFor schema q s) : Scoped s.plan.filtering s.conditionColumns :=
  h.planned_filtering.isScoped (knows_conditionColumns h.condition_filtering)

/-- So does the count, for what it counts is a column of the root. -/
theorem scoped_count (h : PlannedFor schema q s) :
    Scoped s.plan.filtering (s.distinctKey.toList ++ s.conditionColumns) := by
  refine h.planned_filtering.isScoped ?_
  rw [List.forall_mem_append]
  refine ⟨fun key hkey => ?_, knows_conditionColumns h.condition_filtering⟩
  rw [Option.mem_toList] at hkey
  cases hd : q.distinct with
  | false => rw [h.plain hd] at hkey; cases hkey
  | true =>
    obtain ⟨name, _, hname⟩ := h.distinct hd
    rw [hname] at hkey
    cases hkey
    exact knows_root

end Select.PlannedFor

/-- **Every statement is well scoped.**  Whatever a query asks for, the statement that reads its
    rows joins the tables that its select list, condition and order use, and the statements that
    count and that ask for existence, which leave out the joins for reading, join all that their
    condition uses. -/
theorem compile_scoped {c : Compiled} (h : q.compile schema = .ok c) :
    ∃ s, Select.ofQuery schema q = .ok s ∧ c = s.compiled q ∧
      Scoped s.plan (s.list.columns.map SelectColumn.column ++ s.conditionColumns ++
        s.order.map Prod.fst) ∧
      Scoped s.plan.filtering (s.distinctKey.toList ++ s.conditionColumns) ∧
      Scoped s.plan.filtering s.conditionColumns := by
  obtain ⟨s, hs, h⟩ := bind_eq_ok_iff.1 h
  rw [pure_eq_ok_iff] at h
  have hplanned := Select.plannedFor_of_ofQuery hs
  exact ⟨s, hs, h.symm, hplanned.scoped_content, hplanned.scoped_count, hplanned.scoped_existence⟩

/-- Members of the parts of a team, and older ones: read by their teams, in the order of those. -/
def Sample.members : Query where
  entity := Sample.member
  shape := .list
  predicate := some (.and (.comparison ⟨["age"]⟩ .isNotNull .none)
    (.or (.comparison ⟨["team", "parent", "id"]⟩ .equals (.literal (.integer 1)))
      (.comparison ⟨["age"]⟩ .greaterThan (.literal (.integer 35)))))
  target := .scalar ⟨["team", "id"]⟩
  order := [⟨⟨["team", "parent", "id"]⟩, .ascending⟩]

/-- The same members page by page, with their teams. -/
def Sample.pagedMembers : Query :=
  { Sample.members with shape := .page, joins := [⟨⟨["team"]⟩, .left, true⟩] }

/-- The paged members, whose order needs a join that counting leaves out. -/
theorem compile_scoped_pagedMembers :
    ∃ c, Sample.pagedMembers.compile Sample.league = .ok c ∧
      ∃ s : Select, c.content = s.content ∧ c.count = some s.count ∧
        Scoped s.plan (s.list.columns.map SelectColumn.column ++ s.conditionColumns ++
          s.order.map Prod.fst) ∧
        Scoped s.plan.filtering (s.distinctKey.toList ++ s.conditionColumns) := by
  have hcompiles : ∃ c, Sample.pagedMembers.compile Sample.league = .ok c := ⟨_, by rfl⟩
  obtain ⟨c, hc⟩ := hcompiles
  obtain ⟨s, _, rfl, hcontent, hcount, _⟩ := compile_scoped hc
  exact ⟨_, hc, s, rfl, rfl, hcontent, hcount⟩

end EntityQuery
