import EntityQuery.Proofs.Plan.Insisted
import EntityQuery.Proofs.Plan.Scope
import EntityQuery.Proofs.Rows.Joined
import EntityQuery.Proofs.Rows.Meaning

namespace EntityQuery

open JoinPlan

/-!
# Selected rows

Which rows the statements of a select stand for, and which rows a query asks for.

A row of the root is kept (`Keeps`) if every inner join that the caller insists on finds a partner
and the predicate holds of what its paths read from the row.  `rowsFrom_of_keeps` and
`rowsFrom_of_not_keeps` show that the statements select just these rows, once each, although inner
joins are chosen long before any row is seen: each of them is backed by one of the two conditions.

* `compile_selects`: the joins that a predicate is given do not change what it means;
* `compile_sameRows`: what is read of the rows, and in which order and shape, does not change which
  rows there are.
-/

variable {schema : Schema} {root : Entity} {plan : JoinPlan} {q : Query} {s : Select}
variable (M : Meaning) (db : Database schema)

/-! ### What a query asks for -/

/-- Whether the predicate is true of what its paths read from a row. -/
def Query.holds (q : Query) (start : TableRow) : Bool :=
  match q.predicate with
  | none => true
  | some p => p.eval M (db.read q.entity start) = .yes

/-- A value that is not null is read from a row that is there. -/
theorem Database.isSome_of_read {start : TableRow} {path : Path}
    (h : db.read root start path ≠ .null) :
    (db.walk root (some start) path.parent.segments).isSome = true := by
  cases hwalk : db.walk root (some start) path.parent.segments with
  | some owner => rfl
  | none =>
    refine absurd ?_ h
    unfold Database.read
    rw [hwalk]
    cases schema.resolve root path <;> rfl

/-- A predicate that holds reads what it cannot do without behind rows that are there. -/
theorem isSome_of_wants {start : TableRow} (h : q.holds M db start = true) {path : Path}
    (hwants : q.Wants path) : (db.walk q.entity (some start) path.segments).isSome = true := by
  obtain ⟨p, hp, c, hc, ⟨hrequired, hrejects⟩, rfl⟩ := hwants
  rw [Query.holds, hp, decide_eq_true_eq] at h
  exact db.isSome_of_read (ne_null_of_eval h hc hrequired hrejects)

namespace Select

/-! ### What the statements stand for -/

/-- Whether the condition is true of a joined row. -/
def accepts (s : Select) (row : JoinedRow) : Bool :=
  match s.condition with
  | none => true
  | some condition => condition.eval M row.value = .yes

/-- The rows of a statement that joins the tables of a plan, in any order. -/
def rows (s : Select) (plan : JoinPlan) : List JoinedRow :=
  (plan.joined db s.root).filter (s.accepts M)

/-- The rows of the root that the rows of a statement come from. -/
def roots (s : Select) (plan : JoinPlan) : List TableRow :=
  (s.rows M db plan).filterMap fun row => row 0

/-- The tables that the content statement of a shape joins. -/
def contentPlan (s : Select) : Shape → JoinPlan
  | .count | .existence => s.plan.filtering
  | _ => s.plan

/-- The number that the counting statement gives: of all rows, or of the different values in the
    column that tells them apart. -/
def counted (s : Select) : Nat :=
  let rows := s.rows M db s.plan.filtering
  match s.distinctKey with
  | none => rows.length
  | some key => (((rows.map (·.value key)).filter (· ≠ .null)).map Stored.key).dedup.length

/-- The rows that come from one row of the root. -/
def rowsFrom (s : Select) (plan : JoinPlan) (start : TableRow) : List JoinedRow :=
  (combined db plan.joins [JoinedRow.ofRoot start]).filter (s.accepts M)

/-- The rows of a select, one row of the root's table after the other. -/
theorem rows_eq_flatMap (s : Select) (plan : JoinPlan) :
    s.rows M db plan = (db.rows s.root.table).flatMap (s.rowsFrom M db plan) := by
  rw [rows, joined_eq_flatMap, List.filter_flatMap]
  rfl

/-! ### Which rows are kept -/

/-- The row has the partners that the caller insists on, and the predicate holds of it. -/
structure Keeps (q : Query) (s : Select) (start : TableRow) : Prop where
  partners : ∀ path, s.plan.Insists path →
    (db.walk q.entity (some start) path.segments).isSome = true
  holds : q.holds M db start = true

variable {M db} {start : TableRow}

/-- Columns hold what their paths read. -/
theorem value_eq_read {joins : List Join} {row : JoinedRow}
    (h : Follows db root start joins row) {path : Path} {c : Column} {type : Option ScalarType}
    (hc : JoinPlan.column schema root ⟨joins⟩ path = .ok (c, type)) :
    row.value c = db.read root start path := by
  obtain ⟨r, hr, htable, hterminal⟩ := column_eq_ok hc
  unfold JoinedRow.value Database.read
  rw [h.of_table htable, hr]
  -- The column is the one of the property the path ends in.
  have hcolumn : r.terminal.column? = some c.name := by
    rcases hterminal with ⟨f, hfield, hname, _⟩ | ⟨a, hassociation, hname⟩
    · rw [hfield, hname]
      rfl
    · rw [hassociation]
      exact hname
  cases db.walk root (some start) path.parent.segments with
  | none => rfl
  | some owner => simp only [hcolumn, Option.map_some, Option.getD_some]

/-- The condition of a joined row that follows the paths is the predicate of its root. -/
theorem accepts_eq_holds
    (hcondition : q.predicate.mapM (conditionOf schema q.entity plan) = .ok s.condition)
    {row : JoinedRow} (h : Follows db q.entity start plan.joins row) :
    s.accepts M row = q.holds M db start := by
  unfold accepts Query.holds
  rcases mapM_eq_ok_iff.1 hcondition with ⟨hp, hnone⟩ | ⟨p, condition, hp, hsome, hmade⟩
  · rw [hp, hnone]
  · have heval : condition.eval M row.value = p.eval M (db.read q.entity start) := by
      refine eval_ofPredicate hmade fun path _ c hc => ?_
      simp only [bind_eq_ok_iff, pure_eq_ok_iff] at hc
      obtain ⟨⟨c, type⟩, hcolumn, rfl⟩ := hc
      exact value_eq_read h hcolumn
    simp only [hp, hsome, heval]

/-- A plan that joins what decides about the rows of a select, whatever else it joins. -/
structure Decides (schema : Schema) (q : Query) (s : Select) (plan : JoinPlan) : Prop where
  planned : Planned schema q.entity plan.joins
  condition : q.predicate.mapM (conditionOf schema q.entity plan) = .ok s.condition
  inner : ∀ j, j.kind = .inner → (j ∈ plan.joins ↔ j ∈ s.plan.joins)

namespace PlannedFor

/-- The whole plan decides which rows there are. -/
theorem decides (h : PlannedFor schema q s) : Decides schema q s s.plan :=
  ⟨h.planned, h.condition, fun _ _ => Iff.rfl⟩

/-- So do its filtering joins alone. -/
theorem decides_filtering (h : PlannedFor schema q s) : Decides schema q s s.plan.filtering where
  planned := h.planned_filtering
  condition := h.condition_filtering
  inner _ hkind := ⟨fun hj => (List.mem_filter.1 hj).1, fun hj => h.mem_filtering_of_inner hj hkind⟩

/-- The inner joins find partners exactly if those do that the caller insists on, for a row that
    the predicate holds of. -/
theorem partnered_iff (h : PlannedFor schema q s) (hplan : Decides schema q s plan)
    (hholds : q.holds M db start = true) :
    Partnered db q.entity start plan.joins ↔ Keeps M db q s start := by
  constructor
  · refine fun hpartnered => ⟨?_, hholds⟩
    rintro path ⟨j, hj, rfl, hkind, _⟩
    exact hpartnered j ((hplan.inner j hkind).2 hj) hkind
  · intro hkeeps j hj hkind
    obtain ⟨p, hp, hway⟩ := h.backed j ((hplan.inner j hkind).1 hj) hkind
    refine db.walk_isSome_of_isPrefix hway ?_
    rcases hp with hinsists | hwants
    · exact hkeeps.partners p hinsists
    · exact isSome_of_wants M db hholds hwants

/-- **Kept rows are selected**, once each. -/
theorem rowsFrom_of_keeps (h : PlannedFor schema q s) (hplan : Decides schema q s plan)
    (hkeeps : Keeps M db q s start) :
    ∃ row, s.rowsFrom M db plan start = [row] ∧ Follows db q.entity start plan.joins row := by
  have hpartnered := (h.partnered_iff hplan hkeeps.holds).2 hkeeps
  obtain ⟨row, hrow, hfollows⟩ := (combined_of_planned hplan.planned start).1 hpartnered
  refine ⟨row, ?_, hfollows⟩
  rw [rowsFrom, hrow, List.filter_singleton, accepts_eq_holds hplan.condition hfollows,
    hkeeps.holds]
  rfl

/-- **Other rows are not selected.** -/
theorem rowsFrom_of_not_keeps (h : PlannedFor schema q s) (hplan : Decides schema q s plan)
    (hnot : ¬ Keeps M db q s start) : s.rowsFrom M db plan start = [] := by
  by_cases hpartnered : Partnered db q.entity start plan.joins
  · -- The joins keep the row, so it is the predicate that does not hold.
    obtain ⟨row, hrow, hfollows⟩ := (combined_of_planned hplan.planned start).1 hpartnered
    have hholds : q.holds M db start = false :=
      Bool.eq_false_iff.2 fun hholds => hnot ((h.partnered_iff hplan hholds).1 hpartnered)
    rw [rowsFrom, hrow, List.filter_singleton, accepts_eq_holds hplan.condition hfollows, hholds]
    rfl
  · rw [rowsFrom, (combined_of_planned hplan.planned start).2 hpartnered, List.filter_nil]

end PlannedFor

/-- The roots of a statement, one row of the root after the other. -/
theorem roots_eq_flatMap (s : Select) (plan : JoinPlan) :
    s.roots M db plan = (db.rows s.root.table).flatMap fun start =>
      (s.rowsFrom M db plan start).filterMap fun row => row 0 := by
  rw [roots, rows_eq_flatMap, List.filterMap_flatMap]

namespace PlannedFor

/-- A root row that is kept gives itself once. -/
theorem roots_of_keeps (h : PlannedFor schema q s) (hplan : Decides schema q s plan)
    (hkeeps : Keeps M db q s start) :
    ((s.rowsFrom M db plan start).filterMap fun row => row 0) = [start] := by
  obtain ⟨row, hrows, hfollows⟩ := h.rowsFrom_of_keeps hplan hkeeps
  rw [hrows, List.filterMap_cons_some (f := fun row : JoinedRow => row 0) hfollows.atRoot,
    List.filterMap_nil]

/-- One that is not kept gives nothing. -/
theorem roots_of_not_keeps (h : PlannedFor schema q s) (hplan : Decides schema q s plan)
    (hnot : ¬ Keeps M db q s start) :
    ((s.rowsFrom M db plan start).filterMap fun row => row 0) = [] := by
  rw [h.rowsFrom_of_not_keeps hplan hnot, List.filterMap_nil]

/-- Every selected row comes from a row of the root. -/
theorem length_roots (h : PlannedFor schema q s) (hplan : Decides schema q s plan) :
    (s.roots M db plan).length = (s.rows M db plan).length := by
  rw [roots, List.filterMap_length_eq_length]
  intro row hrow
  rw [rows_eq_flatMap, List.mem_flatMap] at hrow
  obtain ⟨start, _, hrow⟩ := hrow
  by_cases hkeeps : Keeps M db q s start
  · obtain ⟨only, hrows, hfollows⟩ := h.rowsFrom_of_keeps hplan hkeeps
    rw [hrows, List.mem_singleton] at hrow
    rw [hrow, hfollows.atRoot]
    rfl
  · rw [h.rowsFrom_of_not_keeps hplan hkeeps] at hrow
    cases hrow

end PlannedFor

end Select

/-! ### Inferred joins -/

/-- Items that are each kept once or not at all. -/
theorem flatMap_eq_filter {α : Type} {l : List α} {f : α → List α} {p : α → Bool}
    (hpos : ∀ a, p a = true → f a = [a]) (hneg : ∀ a, p a = false → f a = []) :
    l.flatMap f = l.filter p := by
  induction l with
  | nil => rfl
  | cons a l ih =>
    rw [List.flatMap_cons, ih, List.filter_cons]
    cases ha : p a with
    | true => rw [hpos a ha]; rfl
    | false => rw [hneg a ha]; rfl

/-- Without joins of the caller, nothing but the predicate decides. -/
theorem Select.PlannedFor.keeps_iff (h : PlannedFor schema q s) (hjoins : q.joins = [])
    {start : TableRow} : Keeps M db q s start ↔ q.holds M db start = true := by
  refine ⟨Keeps.holds, fun hholds => ⟨fun path hinsists => ?_, hholds⟩⟩
  have hnone : q.joins = [] ++ [] := hjoins
  obtain ⟨base, hbase, hiff⟩ := h.insists_iff hnone nofun
  rw [hiff path] at hinsists
  cases hbase
  obtain ⟨j, hj, _⟩ := hinsists
  cases hj

/-- **Inferred joins preserve the predicate.**  A list query without joins of its own selects exactly
    the rows that its predicate holds of, once each, wherever its paths lead: which joins are inner
    ones never shows. -/
theorem compile_selects {c : Compiled} (h : q.compile schema = .ok c) (hjoins : q.joins = [])
    (hdistinct : q.distinct = false) (hshape : q.shape = .list) (M : Meaning)
    (db : Database schema) :
    ∃ s, Select.ofQuery schema q = .ok s ∧
      c.content = s.statement s.list.text s.plan [.sql s.orderText] ∧
      (s.roots M db s.plan).Perm ((db.rows q.entity.table).filter (q.holds M db)) := by
  obtain ⟨s, hs, h⟩ := bind_eq_ok_iff.1 h
  rw [pure_eq_ok_iff] at h
  have hplanned := Select.plannedFor_of_ofQuery hs
  refine ⟨s, hs, ?_, ?_⟩
  · rw [← h, Select.compiled, hshape]
    simp [Select.content, hplanned.plain hdistinct]
  · rw [Select.roots_eq_flatMap, hplanned.root]
    refine List.Perm.of_eq (flatMap_eq_filter (fun start hholds => ?_) fun start hnot => ?_)
    -- Without written joins a row is kept exactly if the condition holds for it.
    · exact hplanned.roots_of_keeps hplanned.decides ((hplanned.keeps_iff M db hjoins).2 hholds)
    · refine hplanned.roots_of_not_keeps hplanned.decides fun hkeeps => ?_
      rw [(hplanned.keeps_iff M db hjoins).1 hkeeps] at hnot
      cases hnot

/-- Of the sample members, the second is in a part of a team and the third is old enough. -/
theorem compile_selects_members :
    ∃ c, Sample.members.compile Sample.league = .ok c ∧
      ∃ s, Select.ofQuery Sample.league Sample.members = .ok s ∧
        c.content = s.statement s.list.text s.plan [.sql s.orderText] ∧
        (s.roots Sample.meaning Sample.database s.plan).Perm
          [Sample.row [("member_id", 2), ("age", 30), ("team_id", 2)],
            Sample.row [("member_id", 3), ("age", 40)]] := by
  have hcompiles : ∃ c, Sample.members.compile Sample.league = .ok c := ⟨_, by rfl⟩
  obtain ⟨c, hc⟩ := hcompiles
  exact ⟨c, hc, compile_selects hc rfl rfl rfl Sample.meaning Sample.database⟩

/-! ### Queries for the same rows -/

/-- **Queries for the same rows.**  They may read other properties of the rows, in another order and
    shape, and may load further associations with them. -/
structure Query.SameRows (q₁ q₂ : Query) : Prop where
  entity : q₁.entity = q₂.entity
  predicate : q₁.predicate = q₂.predicate
  distinct : q₁.distinct = false ∧ q₂.distinct = false
  joins : ∃ joins fetches₁ fetches₂, q₁.joins = joins ++ fetches₁ ∧ q₂.joins = joins ++ fetches₂ ∧
    ∀ request ∈ fetches₁ ++ fetches₂, request.kind = .left ∧ request.fetch = true

namespace Select

variable {q₁ q₂ : Query} {s₁ s₂ : Select} {plan₁ plan₂ : JoinPlan}

/-- Queries for the same rows keep the same rows. -/
theorem keeps_iff_of_sameRows (h : q₁.SameRows q₂) (h₁ : PlannedFor schema q₁ s₁)
    (h₂ : PlannedFor schema q₂ s₂) {start : TableRow} :
    Keeps M db q₁ s₁ start ↔ Keeps M db q₂ s₂ start := by
  obtain ⟨joins, fetches₁, fetches₂, hjoins₁, hjoins₂, hfetches⟩ := h.joins
  rw [List.forall_mem_append] at hfetches
  obtain ⟨base₁, hbase₁, hiff₁⟩ := h₁.insists_iff hjoins₁ fun request hr => (hfetches.1 request hr).1
  obtain ⟨base₂, hbase₂, hiff₂⟩ := h₂.insists_iff hjoins₂ fun request hr => (hfetches.2 request hr).1
  have hholds : q₁.holds M db start = q₂.holds M db start := by
    rw [Query.holds, Query.holds, h.entity, h.predicate]
  -- The common joins lead to the same plan, and nothing after them adds to what is insisted on.
  have hinsists : ∀ path, s₁.plan.Insists path ↔ s₂.plan.Insists path := by
    intro path
    rw [h.entity] at hbase₁
    rw [hiff₁, hiff₂, hbase₁.unique hbase₂]
  constructor
  · rintro ⟨hpartners, hholds₁⟩
    exact ⟨fun path hp => h.entity ▸ hpartners path ((hinsists path).2 hp), hholds ▸ hholds₁⟩
  · rintro ⟨hpartners, hholds₂⟩
    exact ⟨fun path hp => h.entity ▸ hpartners path ((hinsists path).1 hp), hholds ▸ hholds₂⟩

/-- Queries for the same rows select the same rows. -/
theorem roots_eq_of_sameRows (h : q₁.SameRows q₂) (h₁ : PlannedFor schema q₁ s₁)
    (h₂ : PlannedFor schema q₂ s₂) (hplan₁ : Decides schema q₁ s₁ plan₁)
    (hplan₂ : Decides schema q₂ s₂ plan₂) : s₁.roots M db plan₁ = s₂.roots M db plan₂ := by
  rw [roots_eq_flatMap, roots_eq_flatMap, h₁.root, h₂.root, h.entity]
  refine List.flatMap_congr fun start _ => ?_
  by_cases hkeeps : Keeps M db q₁ s₁ start
  · rw [h₁.roots_of_keeps hplan₁ hkeeps,
      h₂.roots_of_keeps hplan₂ ((keeps_iff_of_sameRows M db h h₁ h₂).1 hkeeps)]
  · rw [h₁.roots_of_not_keeps hplan₁ hkeeps, h₂.roots_of_not_keeps hplan₂ fun hkeeps₂ =>
      hkeeps ((keeps_iff_of_sameRows M db h h₁ h₂).2 hkeeps₂)]

/-- The plan of the content decides, whatever the shape asks for. -/
theorem PlannedFor.decides_contentPlan (h : PlannedFor schema q s) (shape : Shape) :
    Decides schema q s (s.contentPlan shape) := by
  unfold contentPlan
  split
  · exact h.decides_filtering
  · exact h.decides_filtering
  · exact h.decides

end Select

/-- **What is read does not change which rows there are.**  Queries for the same rows select the same
    rows, whatever else they read.  So the number of rows that one lists is the number that the other
    counts, and the other has a row to show exactly if that number is not zero. -/
theorem compile_sameRows {q₁ q₂ : Query} (hsame : q₁.SameRows q₂) {c₁ c₂ : Compiled}
    (h₁ : q₁.compile schema = .ok c₁) (h₂ : q₂.compile schema = .ok c₂) (M : Meaning)
    (db : Database schema) :
    ∃ s₁ s₂, Select.ofQuery schema q₁ = .ok s₁ ∧ c₁ = s₁.compiled q₁ ∧
      Select.ofQuery schema q₂ = .ok s₂ ∧ c₂ = s₂.compiled q₂ ∧
      (s₁.roots M db (s₁.contentPlan q₁.shape)).Perm (s₂.roots M db (s₂.contentPlan q₂.shape)) ∧
      (s₁.rows M db s₁.plan).length = s₂.counted M db ∧
      (s₂.rows M db s₂.plan.filtering ≠ [] ↔ (s₁.rows M db s₁.plan).length ≠ 0) := by
  obtain ⟨s₁, hs₁, h₁⟩ := bind_eq_ok_iff.1 h₁
  obtain ⟨s₂, hs₂, h₂⟩ := bind_eq_ok_iff.1 h₂
  rw [pure_eq_ok_iff] at h₁ h₂
  have hplanned₁ := Select.plannedFor_of_ofQuery hs₁
  have hplanned₂ := Select.plannedFor_of_ofQuery hs₂
  have hroots := Select.roots_eq_of_sameRows M db hsame hplanned₁ hplanned₂
    (hplanned₁.decides_contentPlan q₁.shape) (hplanned₂.decides_contentPlan q₂.shape)
  -- The plans differ in joins that only read, and those change no row.
  have hlength : (s₁.rows M db s₁.plan).length = (s₂.rows M db s₂.plan.filtering).length := by
    rw [← hplanned₁.length_roots hplanned₁.decides, ← hplanned₂.length_roots
      hplanned₂.decides_filtering, Select.roots_eq_of_sameRows M db hsame hplanned₁ hplanned₂
        hplanned₁.decides hplanned₂.decides_filtering]
  refine ⟨s₁, s₂, hs₁, h₁.symm, hs₂, h₂.symm, List.Perm.of_eq hroots, ?_, ?_⟩
  · rw [hlength, Select.counted, hplanned₂.plain hsame.distinct.2]
  · rw [hlength, ne_eq, ne_eq, List.length_eq_zero_iff]

/-- As many sample members are counted page by page as are listed without their teams. -/
theorem compile_sameRows_members :
    ∃ c₁ c₂, Sample.members.compile Sample.league = .ok c₁ ∧
      Sample.pagedMembers.compile Sample.league = .ok c₂ ∧
      ∃ s₁ s₂ : Select, c₁.content = s₁.content ∧ c₂.count = some s₂.count ∧
        (s₁.rows Sample.meaning Sample.database s₁.plan).length =
          s₂.counted Sample.meaning Sample.database := by
  have hcompiles₁ : ∃ c, Sample.members.compile Sample.league = .ok c := ⟨_, by rfl⟩
  have hcompiles₂ : ∃ c, Sample.pagedMembers.compile Sample.league = .ok c := ⟨_, by rfl⟩
  obtain ⟨c₁, hc₁⟩ := hcompiles₁
  obtain ⟨c₂, hc₂⟩ := hcompiles₂
  have hsame : Sample.members.SameRows Sample.pagedMembers :=
    ⟨rfl, rfl, ⟨rfl, rfl⟩, [], [], _, rfl, rfl, by decide⟩
  obtain ⟨s₁, s₂, _, rfl, _, rfl, _, hcount, _⟩ :=
    compile_sameRows hsame hc₁ hc₂ Sample.meaning Sample.database
  exact ⟨_, _, hc₁, hc₂, s₁, s₂, rfl, rfl, hcount⟩

end EntityQuery
