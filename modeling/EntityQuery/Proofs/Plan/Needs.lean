import EntityQuery.Proofs.Plan.Growth
import EntityQuery.Sql.Select

namespace EntityQuery

/-!
# The needs of a query

Needs are served one after the other: first those that decide which rows there are, then those that
only read columns.

* `Serves` is a list of needs served in turn, and lifts what a single need does to a plan;
* `Reads` are needs that only read: they add no filtering join and no inner one, so that the plan
  stays `Layered` and its filtering joins come first;
* `Knows` are the tables that a plan knows, which the columns of properties are read from;
* `Serves.table_stays`: a table that was found stays where it is, so the column of a path that was
  chosen early is its column in the finished plan as well (`Reads.column_stays`).
-/

namespace JoinPlan

/-! ### Needs in turn -/

/-- Needs served one after the other. -/
inductive Serves (schema : Schema) (root : Entity) :
    List (JoinNeed × Path) → JoinPlan → JoinPlan → Prop where
  | nil {plan} : Serves schema root [] plan plan
  | cons {need path needs plan mid plan'} (first : plan.ensure schema root need path = .ok mid)
    (rest : Serves schema root needs mid plan') : Serves schema root ((need, path) :: needs) plan plan'

variable {schema : Schema} {root : Entity} {plan mid plan' : JoinPlan}
variable {needs more : List (JoinNeed × Path)}

namespace Serves

/-- One path is ensured. -/
theorem single {need : JoinNeed} {path : Path} (h : plan.ensure schema root need path = .ok plan') :
    Serves schema root [(need, path)] plan plan' := .cons h .nil

/-- Needs are served one list after the other. -/
theorem append (h : Serves schema root needs plan mid) (h' : Serves schema root more mid plan') :
    Serves schema root (needs ++ more) plan plan' := by
  induction h with
  | nil => exact h'
  | cons first _ ih => exact .cons first (ih h')

/-- And lists of needs can be taken apart again. -/
theorem split (h : Serves schema root (needs ++ more) plan plan') :
    ∃ mid, Serves schema root needs plan mid ∧ Serves schema root more mid plan' := by
  induction needs generalizing plan with
  | nil => exact ⟨plan, .nil, h⟩
  | cons _ needs ih =>
    cases h with
    | cons first rest =>
      obtain ⟨mid, hleft, hright⟩ := ih rest
      exact ⟨mid, .cons first hleft, hright⟩

/-- Every join stays, possibly changed. -/
theorem keeps (h : Serves schema root needs plan plan') {j : Join} (hj : j ∈ plan.joins) :
    ∃ j' ∈ plan'.joins, j.Became j' := by
  induction h generalizing j with
  | nil => exact ⟨j, hj, Join.Became.refl j⟩
  | cons first _ ih =>
    obtain ⟨j', hj', hbecame⟩ := (grows_of_ensure first).keeps hj
    obtain ⟨j'', hj'', hbecame'⟩ := ih hj'
    exact ⟨j'', hj'', hbecame.trans hbecame'⟩

/-- A plan that serves needs is planned as it was before. -/
theorem planned (h : Serves schema root needs plan plan')
    (hplan : Planned schema root plan.joins) : Planned schema root plan'.joins := by
  induction h with
  | nil => exact hplan
  | cons first _ ih => exact ih ((grows_of_ensure first).planned hplan)

/-- Needs that decide which rows there are leave only joins that do. -/
theorem filtering (h : Serves schema root needs plan plan')
    (hneeds : ∀ n ∈ needs, n.1.filtering = true) (hplan : ∀ j ∈ plan.joins, j.filtering = true) :
    ∀ j ∈ plan'.joins, j.filtering = true := by
  induction h with
  | nil => exact hplan
  | cons first _ ih =>
    rw [List.forall_mem_cons] at hneeds
    refine ih hneeds.2 fun j' hj' => ?_
    -- A join that was there goes on filtering, and a new one filters as its need does.
    rcases (grows_of_ensure first).origin hj' with ⟨j, hj, hbecame⟩ | ⟨_, hadded⟩
    · exact hbecame.filtering (hplan j hj)
    · exact hadded.filtering.trans hneeds.1

/-- Every path that a need was served on is joined. -/
theorem reached (h : Serves schema root needs plan plan') {need : JoinNeed} {path : Path}
    (hmem : (need, path) ∈ needs) :
    ∃ j ∈ plan'.joins, j.path = path ∧ (need.filtering = true → j.filtering = true) := by
  induction h with
  | nil => cases hmem
  | cons first rest ih =>
    rcases List.mem_cons.1 hmem with heq | hmem
    · -- The need is the first one, and its join stays while the others are served.
      obtain ⟨rfl, rfl⟩ := Prod.mk.inj heq
      obtain ⟨j, hj, hpath, hfiltering, _⟩ := (grows_of_ensure first).reached
      obtain ⟨j', hj', hbecame⟩ := rest.keeps hj
      exact ⟨j', hj', hbecame.path.trans hpath, fun hf => hbecame.filtering (hfiltering hf)⟩
    · exact ih hmem

end Serves

/-! ### Needs that only read -/

/-- A need that drops no rows and decides about none. -/
structure IsReading (need : JoinNeed) : Prop where
  kind : need.kind = .left
  explicit : need.explicit = false
  filtering : need.filtering = false

/-- What is read decides nothing. -/
theorem isReading_reading : IsReading .reading := ⟨rfl, rfl, rfl⟩

/-- Nor does what is loaded. -/
theorem isReading_fetching : IsReading .fetching := ⟨rfl, rfl, rfl⟩

/-- Nor do the joins on the way to either. -/
theorem IsReading.onTheWay {need : JoinNeed} (h : IsReading need) : IsReading need.onTheWay :=
  ⟨h.kind, rfl, h.filtering⟩

/-- A plan that grew by needs that only read. -/
def Reads (schema : Schema) (root : Entity) (plan plan' : JoinPlan) : Prop :=
  ∃ needs, (∀ n ∈ needs, IsReading n.1) ∧ Serves schema root needs plan plan'

namespace Reads

/-- Reading nothing leaves a plan alone. -/
theorem refl : Reads schema root plan plan := ⟨[], nofun, .nil⟩

/-- Reading goes on. -/
theorem trans (h : Reads schema root plan mid) (h' : Reads schema root mid plan') :
    Reads schema root plan plan' := by
  obtain ⟨needs, hneeds, hserves⟩ := h
  obtain ⟨more, hmore, hserves'⟩ := h'
  exact ⟨needs ++ more, List.forall_mem_append.2 ⟨hneeds, hmore⟩, hserves.append hserves'⟩

/-- A single need that decides nothing is reading. -/
theorem of_ensure {need : JoinNeed} {path : Path} (hneed : IsReading need)
    (h : plan.ensure schema root need path = .ok plan') : Reads schema root plan plan' :=
  ⟨[(need, path)], List.forall_mem_singleton.2 hneed, .single h⟩

end Reads

/-- **Layers of a plan.**  First the joins that decide which rows there are, then left joins that
    do not. -/
def Layered (plan : JoinPlan) : Prop :=
  ∃ front back, plan.joins = front ++ back ∧ (∀ j ∈ front, j.filtering = true) ∧
    ∀ j ∈ back, j.filtering = false ∧ j.kind = .left

/-- A join put in for reading goes behind all others. -/
theorem Layered.add {need : JoinNeed} {path : Path} (h : plan.Layered) (hneed : IsReading need)
    (hadd : plan.add schema root need path = .ok plan') : plan'.Layered := by
  obtain ⟨front, back, hjoins, hfront, hback⟩ := h
  obtain ⟨join, hadded, _, _, hkind, _, hfiltering, _⟩ := add_eq_ok hadd
  refine ⟨front, back ++ [join], by rw [hadded, hjoins, List.append_assoc], hfront, ?_⟩
  rw [List.forall_mem_append, List.forall_mem_singleton]
  exact ⟨hback, hfiltering.trans hneed.filtering, hkind.trans hneed.kind⟩

/-- A join that neither filters nor drops rows does not begin to when it is read. -/
theorem meetAt_of_left {need : JoinNeed} {j : Join} (hneed : IsReading need) (path : Path)
    (h : j.filtering = false ∧ j.kind = .left) :
    (j.meetAt need path).filtering = false ∧ (j.meetAt need path).kind = .left := by
  unfold Join.meetAt
  split
  · refine ⟨by rw [Join.meet_filtering, h.1, hneed.filtering, Bool.or_self], ?_⟩
    simp [Join.meet, h.2]
  · exact h

/-- Growing by a need that decides nothing keeps the joins that decide in front. -/
theorem Grows.layered {need : JoinNeed} {path : Path}
    (h : Grows schema root need path plan plan') (hneed : IsReading need) (hplan : plan.Layered) :
    plan'.Layered := by
  induction h with
  | meets =>
    -- Both layers meet the need where they are.
    obtain ⟨front, back, hjoins, hfront, hback⟩ := hplan
    refine ⟨_, _, by rw [hjoins, List.map_append], ?_, ?_⟩
    · rw [List.forall_mem_map]
      exact fun j hj => (j.became_meetAt _ _).filtering (hfront j hj)
    · rw [List.forall_mem_map]
      exact fun j hj => meetAt_of_left hneed _ (hback j hj)
  | starts _ _ added => exact hplan.add hneed added
  | follows _ _ added ih => exact (ih hneed.onTheWay hplan).add hneed added

/-- So does all reading. -/
theorem Reads.layered (h : Reads schema root plan plan') (hplan : plan.Layered) : plan'.Layered := by
  obtain ⟨needs, hneeds, hserves⟩ := h
  induction hserves with
  | nil => exact hplan
  | cons first _ ih =>
    rw [List.forall_mem_cons] at hneeds
    exact ih ((grows_of_ensure first).layered hneeds.1 hplan) hneeds.2

/-- The filtering joins of a layered plan are its first joins. -/
theorem Layered.filtering_append (h : plan.Layered) :
    ∃ back, plan.joins = plan.filtering.joins ++ back ∧ ∀ j ∈ back, j.kind = .left := by
  obtain ⟨front, back, hjoins, hfront, hback⟩ := h
  have hfiltering : plan.filtering.joins = front := by
    show plan.joins.filter (·.filtering) = front
    rw [hjoins, List.filter_append, List.filter_eq_self.2 hfront,
      List.filter_eq_nil_iff.2 fun j hj => by rw [(hback j hj).1]; exact Bool.false_ne_true,
      List.append_nil]
  exact ⟨back, hfiltering.symm ▸ hjoins, fun j hj => (hback j hj).2⟩

/-! ### Known tables -/

/-- The root and the joined tables. -/
def Knows (plan : JoinPlan) (table : Nat) : Prop := table = 0 ∨ ∃ j ∈ plan.joins, j.table = table

/-- Every plan knows the table of the root. -/
theorem knows_root : plan.Knows 0 := .inl rfl

/-- And those of its joins. -/
theorem Knows.of_mem {j : Join} (h : j ∈ plan.joins) : plan.Knows j.table := .inr ⟨j, h, rfl⟩

/-- What a plan knows stays known. -/
theorem Reads.knows (h : Reads schema root plan plan') {table : Nat} (hknows : plan.Knows table) :
    plan'.Knows table := by
  obtain ⟨needs, _, hserves⟩ := h
  rcases hknows with hroot | ⟨j, hj, htable⟩
  · exact .inl hroot
  · obtain ⟨j', hj', hbecame⟩ := hserves.keeps hj
    exact .inr ⟨j', hj', hbecame.table.trans htable⟩

/-- A join that is found is one of the plan, for that path. -/
theorem mem_of_find? {path : Path} {j : Join} (h : plan.find? path = some j) :
    j ∈ plan.joins ∧ j.path = path := by
  have hpath := List.find?_some (p := fun join : Join => join.path == path) h
  exact ⟨List.mem_of_find?_eq_some h, beq_iff_eq.1 hpath⟩

/-- The table of a path that has segments is the one joined for it. -/
theorem table_eq_ok {path : Path} {table : Nat} (h : plan.table path = .ok table) :
    path.segments = [] ∧ table = 0 ∨
      path.segments ≠ [] ∧ ∃ j, plan.find? path = some j ∧ j.table = table := by
  unfold JoinPlan.table at h
  split at h
  · rename_i hempty
    cases h
    exact .inl ⟨List.isEmpty_iff.1 hempty, rfl⟩
  · rename_i hne
    split at h
    · rename_i j hfind
      cases h
      exact .inr ⟨fun hnil => hne (List.isEmpty_iff.2 hnil), j, hfind, rfl⟩
    · cases h

/-- A table that a path leads to is known. -/
theorem knows_of_table {path : Path} {table : Nat} (h : plan.table path = .ok table) :
    plan.Knows table := by
  rcases table_eq_ok h with ⟨_, rfl⟩ | ⟨_, j, hfind, htable⟩
  · exact knows_root
  · exact .inr ⟨j, (mem_of_find? hfind).1, htable⟩

/-- What the column of a property is: that of a field, with its type, or the foreign key of an
    association, in the table that the path before it leads to. -/
theorem column_eq_ok {path : Path} {c : Column} {type : Option ScalarType}
    (h : plan.column schema root path = .ok (c, type)) :
    ∃ r, schema.resolve root path = .ok r ∧ plan.table path.parent = .ok c.table ∧
      ((∃ f, r.terminal = .field f ∧ c.name = f.column ∧ type = some f.type) ∨
        ∃ a, r.terminal = .association a ∧ a.joinColumn? = some c.name) := by
  unfold column at h
  obtain ⟨r, hr, h⟩ := bind_eq_ok_iff.1 h
  obtain ⟨table, htable, h⟩ := bind_eq_ok_iff.1 h
  rw [lift_eq_ok_iff] at hr
  refine ⟨r, hr, ?_⟩
  -- A field has its column, an association that of its foreign key.
  split at h
  · rename_i f hterminal
    cases h
    exact ⟨htable, .inl ⟨f, hterminal, rfl, rfl⟩⟩
  · rename_i a hterminal
    split at h
    · rename_i name hname
      cases h
      exact ⟨htable, .inr ⟨a, hterminal, hname⟩⟩
    · exact absurd h throw_ne_ok

/-- The table of a property's column is known. -/
theorem knows_of_column {path : Path} {c : Column} {type : Option ScalarType}
    (h : plan.column schema root path = .ok (c, type)) : plan.Knows c.table := by
  obtain ⟨_, _, htable, _⟩ := column_eq_ok h
  exact knows_of_table htable

/-! ### Tables stay -/

variable {need : JoinNeed} {path p : Path} {table : Nat}

/-- A further need changes a join in its place. -/
theorem find?_map_meetAt :
    JoinPlan.find? ⟨plan.joins.map fun join => join.meetAt need path⟩ p =
      (plan.find? p).map (·.meetAt need path) := by
  have hpath : ((fun join : Join => join.path == p) ∘ fun join : Join => join.meetAt need path) =
      fun join : Join => join.path == p := by
    funext join
    simp [(join.became_meetAt need path).path]
  unfold find?
  rw [List.find?_map, hpath]

/-- A join at the end is found unless the path has one before it. -/
theorem find?_append {join : Join} (h : plan'.joins = plan.joins ++ [join]) :
    plan'.find? p = (plan.find? p).or (if join.path = p then some join else none) := by
  unfold find?
  rw [h, List.find?_append, List.find?_singleton]
  simp

/-- A join is found again after the plan has grown. -/
theorem Grows.find?_stays (h : Grows schema root need path plan plan') {join : Join}
    (hfind : plan.find? p = some join) :
    ∃ join', plan'.find? p = some join' ∧ join.Became join' := by
  induction h with
  | @meets need path plan _ =>
    refine ⟨join.meetAt need path, ?_, join.became_meetAt need path⟩
    rw [find?_map_meetAt, hfind, Option.map_some]
  | starts _ _ added =>
    obtain ⟨_, hjoins, _⟩ := add_eq_ok added
    exact ⟨join, by rw [find?_append hjoins, hfind, Option.some_or], .refl join⟩
  | follows _ _ added ih =>
    obtain ⟨join', hfind', hbecame⟩ := ih hfind
    obtain ⟨_, hjoins, _⟩ := add_eq_ok added
    exact ⟨join', by rw [find?_append hjoins, hfind', Option.some_or], hbecame⟩

/-- The join of a path has its table. -/
theorem table_of_find? {join : Join} (hne : path.segments ≠ []) (h : plan.find? path = some join) :
    plan.table path = .ok join.table := by
  unfold JoinPlan.table
  rw [if_neg (by simpa using hne), h]

/-- The table of a path stays the same while needs are served. -/
theorem Serves.table_stays {needs : List (JoinNeed × Path)}
    (h : Serves schema root needs plan plan') (htable : plan.table p = .ok table) :
    plan'.table p = .ok table := by
  induction h with
  | nil => exact htable
  | cons first _ ih =>
    refine ih ?_
    rcases table_eq_ok htable with ⟨hempty, rfl⟩ | ⟨hne, join, hfind, rfl⟩
    · unfold JoinPlan.table
      rw [if_pos (by simpa using hempty)]
    · obtain ⟨join', hfind', hbecame⟩ := (grows_of_ensure first).find?_stays hfind
      rw [table_of_find? hne hfind', hbecame.table]

/-- What is read later does not move a path to another table. -/
theorem Reads.table_stays (h : Reads schema root plan plan') (htable : plan.table p = .ok table) :
    plan'.table p = .ok table := by
  obtain ⟨needs, _, hserves⟩ := h
  exact hserves.table_stays htable

/-- **Columns stay.**  The column of a path is the same in the grown plan. -/
theorem Reads.column_stays (h : Reads schema root plan plan') {x : Column × Option ScalarType}
    (hcolumn : plan.column schema root p = .ok x) : plan'.column schema root p = .ok x := by
  unfold column at hcolumn ⊢
  obtain ⟨r, hr, hcolumn⟩ := bind_eq_ok_iff.1 hcolumn
  obtain ⟨t, htable, hcolumn⟩ := bind_eq_ok_iff.1 hcolumn
  rw [hr, ok_bind, h.table_stays htable, ok_bind]
  exact hcolumn

end JoinPlan

end EntityQuery
