import EntityQuery.Proofs.Plan.Fetching
import EntityQuery.Proofs.Schema.Entities

namespace EntityQuery

open JoinPlan

/-!
# Progress of plans

When planning succeeds.  What is joined in one plan can be joined in any other one
(`exists_ensure`), and so can the associations of an entity whose schema knows their targets
(`exists_ensure_single`).  Hence a query compiles with another target if only the columns of that
target can be chosen (`Select.exists_ofQuery`).
-/

variable {schema : Schema} {root : Entity} {plan mid plan' : JoinPlan}
variable {need : JoinNeed} {path p : Path} {table : Nat}

namespace JoinPlan

/-! ### Joining again -/

/-- A path that is empty or joined has a table. -/
theorem exists_table (h : path.segments = [] ∨ path ∈ plan.paths) :
    ∃ t, plan.table path = .ok t := by
  by_cases hempty : path.segments = []
  · exact ⟨0, by unfold JoinPlan.table; rw [if_pos (by simpa using hempty)]⟩
  · obtain ⟨join, hjoin, hpath⟩ := mem_paths.1 (h.resolve_left hempty)
    have hfound : (plan.find? path).isSome = true :=
      List.find?_isSome.2 ⟨join, hjoin, beq_iff_eq.2 hpath⟩
    obtain ⟨found, hfind⟩ := Option.isSome_iff_exists.1 hfound
    exact ⟨found.table, table_of_find? hempty hfind⟩

/-- The path is joined once it was served. -/
theorem mem_paths_of_ensure (h : plan.ensure schema root need path = .ok plan') :
    path ∈ plan'.paths := by
  obtain ⟨join, hjoin, hpath, _⟩ := (grows_of_ensure h).reached
  exact mem_paths.2 ⟨join, hjoin, hpath⟩

/-- A path that leads over an association can be put into any plan that knows its parent. -/
theorem exists_add {r : Resolution} {a : Association} {foreignKey targetKey : String} {target : Entity}
    (hr : schema.resolve root path = .ok r) (ha : r.association? = some a)
    (hforeignKey : a.joinColumn? = some foreignKey) (htarget : schema.entity? a.target = some target)
    (hkey : target.idColumn = .ok targetKey)
    (hparent : path.parent.segments = [] ∨ path.parent ∈ plan.paths) :
    ∃ plan', plan.add schema root need path = .ok plan' := by
  obtain ⟨parent, htable⟩ := exists_table hparent
  unfold JoinPlan.add
  rw [lift_eq_ok_iff.2 hr, ok_bind]
  simp only [ha, hforeignKey, htarget, hkey, htable, ok_bind]
  exact ⟨_, rfl⟩

/-- A joined path starts at the root or at another joined path. -/
theorem Planned.parent_joined {joins : List Join} (hplanned : Planned schema root joins) {join : Join}
    (hjoin : join ∈ joins) (hne : join.path.parent.segments ≠ []) :
    ∃ j ∈ joins, j.path = join.path.parent := by
  obtain ⟨earlier, hearlier, hlinked⟩ := hplanned.linked_of_mem hjoin
  rcases table_eq_ok hlinked.parent with ⟨hempty, _⟩ | ⟨_, j, hfind, _⟩
  · exact absurd hempty hne
  · obtain ⟨hj, hpath⟩ := mem_of_find? hfind
    exact ⟨j, hearlier hj, hpath⟩

/-- A path that is joined in some plan can be joined in every other one. -/
theorem exists_ensureReversed {joins : List Join} (hplanned : Planned schema root joins)
    {reversed : List String} (hjoined : ∃ join ∈ joins, join.path = ⟨reversed.reverse⟩) :
    ∃ plan', plan.ensureReversed schema root need reversed = .ok plan' := by
  induction reversed generalizing plan need with
  | nil =>
    obtain ⟨join, hjoin, hpath⟩ := hjoined
    -- No join has the empty path: the root is not joined to itself.
    obtain ⟨_, _, hlinked⟩ := hplanned.linked_of_mem hjoin
    obtain ⟨r, _, hr, _⟩ := hlinked.resolves
    rw [hpath] at hr
    cases hr
  | cons segment before ih =>
    obtain ⟨join, hjoin, hpath⟩ := hjoined
    obtain ⟨_, _, hlinked⟩ := hplanned.linked_of_mem hjoin
    obtain ⟨r, a, hr, ha, hforeignKey, htarget⟩ := hlinked.resolves
    have hparent : Path.parent ⟨(segment :: before).reverse⟩ = ⟨before.reverse⟩ := by
      simp [Path.parent]
    rw [hpath] at hr
    simp only [ensureReversed]
    split
    · exact ⟨_, rfl⟩
    · split
      · rename_i hbefore
        rw [pure_bind]
        refine exists_add hr ha hforeignKey htarget hlinked.targetKey (.inl ?_)
        rw [hparent, List.isEmpty_iff.1 hbefore]
        rfl
      · -- The parent is joined in the other plan, so it can be joined here first.
        rename_i hbefore
        have hne : join.path.parent.segments ≠ [] := by
          rw [hpath, hparent]
          simpa using hbefore
        have hjoinedParent := hplanned.parent_joined hjoin hne
        rw [hpath, hparent] at hjoinedParent
        obtain ⟨mid, hmid⟩ := ih hjoinedParent
        rw [hmid, ok_bind]
        refine exists_add hr ha hforeignKey htarget hlinked.targetKey (.inr ?_)
        obtain ⟨j, hj, hjpath, _⟩ := (grows_of_ensureReversed hmid).reached
        exact hparent ▸ mem_paths.2 ⟨j, hj, hjpath⟩

/-- **What one plan joins, any other plan can join.** -/
theorem exists_ensure {joins : List Join} (hplanned : Planned schema root joins)
    (hjoined : path ∈ joins.map Join.path) (plan : JoinPlan) (need : JoinNeed) :
    ∃ plan', plan.ensure schema root need path = .ok plan' := by
  obtain ⟨join, hjoin, hpath⟩ := List.mem_map.1 hjoined
  refine exists_ensureReversed hplanned ⟨join, hjoin, ?_⟩
  rw [hpath, List.reverse_reverse]

end JoinPlan

namespace Planning

variable {α β : Type}

/-- Where each item can be dealt with in any plan, all of them can be in turn. -/
theorem exists_run_mapM {f : β → Planning α} {items : List β}
    (hstep : ∀ b ∈ items, ∀ p, ∃ a p', (f b).run p = .ok (a, p')) (plan : JoinPlan) :
    ∃ answers plan', (items.mapM f).run plan = .ok (answers, plan') := by
  induction items generalizing plan with
  | nil => exact ⟨[], plan, by rw [List.mapM_nil, run_pure_iff]; exact ⟨rfl, rfl⟩⟩
  | cons item items ih =>
    rw [List.forall_mem_cons] at hstep
    obtain ⟨a, mid, hitem⟩ := hstep.1 plan
    obtain ⟨answers, plan', hrest⟩ := ih hstep.2 mid
    refine ⟨a :: answers, plan', ?_⟩
    rw [List.mapM_cons]
    simp only [run_bind_iff, run_pure_iff]
    exact ⟨a, mid, hitem, answers, plan', hrest, rfl, rfl⟩

end Planning

/-! ### Associations of a schema -/

/-- The to-one associations of an entity can be joined, unless one has the empty name, which no path
    can hold. -/
theorem exists_ensure_single (htargets : schema.Targets root) (hnames : root.PlainNames)
    {a : Association} (ha : a ∈ root.associations) (htoOne : a.isToOne = true) (hname : a.name ≠ "")
    (plan : JoinPlan) (need : JoinNeed) :
    ∃ plan', plan.ensure schema root need (.single a.name) = .ok plan' := by
  obtain ⟨target, key, htarget, hkey⟩ := htargets a ha htoOne
  obtain ⟨foreignKey, hforeignKey⟩ := Option.isSome_iff_exists.1 htoOne
  -- No field has the association's name, so its path ends in it.
  have hresolve : schema.resolve root (.single a.name) =
      .ok ⟨.single a.name, [], root, .association a⟩ := by
    simp [Schema.resolve, Schema.follow, Path.single, hname, hnames.fieldNamed?_eq_none ha,
      hnames.associationNamed?_eq ha]
  show ∃ plan', plan.ensureReversed schema root need [a.name] = .ok plan'
  simp only [ensureReversed]
  split
  · exact ⟨_, rfl⟩
  · simp only [List.isEmpty_nil, if_true, pure_bind]
    exact exists_add hresolve rfl hforeignKey htarget hkey (.inl rfl)

/-! ### Select lists of records -/

namespace SelectList

open Planning

/-- An association that can be joined can be loaded. -/
theorem exists_run_associationColumns {a : Association}
    (hjoins : ∀ plan need, ∃ plan',
      JoinPlan.ensure schema root plan need (.single a.name) = .ok plan') (plan : JoinPlan) :
    ∃ list plan', (associationColumns schema root true a).run plan = .ok (list, plan') := by
  obtain ⟨mid, hmid⟩ := hjoins plan .fetching
  obtain ⟨last, hlast⟩ := hjoins mid .fetching
  -- Reading everything loads the path first, and it stays loaded when it is asked for again.
  have hloaded := (grows_of_ensure hmid).fetching?_isSome rfl
  have hloadedAgain := (grows_of_ensure hlast).fetching?_isSome rfl
  rw [← any_fetch_eq, Option.any_eq_true] at hloadedAgain
  obtain ⟨join, hfind, _⟩ := hloadedAgain
  refine ⟨⟨fieldColumns join.table (a.name ++ ".") join.target ++
    join.target.associations.filterMap (keyColumn join.table (a.name ++ ".")), [a.name]⟩, last, ?_⟩
  unfold associationColumns
  refine run_bind_iff.2 ⟨(), mid, run_ensure_iff.2 hmid, ?_⟩
  refine run_bind_iff.2 ⟨mid, mid, run_get_iff.2 ⟨rfl, rfl⟩, ?_⟩
  rw [any_fetch_eq, if_pos hloaded]
  refine run_bind_iff.2 ⟨(), last, run_ensure_iff.2 hlast, ?_⟩
  refine run_bind_iff.2 ⟨last, last, run_get_iff.2 ⟨rfl, rfl⟩, ?_⟩
  rw [hfind]
  exact run_pure_iff.2 ⟨rfl, rfl⟩

/-- The columns of a record with all its to-one associations can be chosen in any plan. -/
theorem exists_run_ofEntity (htargets : schema.Targets root) (hnames : root.PlainNames)
    (hnamed : ∀ a ∈ root.associations, a.isToOne = true → a.name ≠ "") (plan : JoinPlan) :
    ∃ list plan', (ofEntity schema root true).run plan = .ok (list, plan') := by
  have hruns : ∀ a ∈ root.associations.filter (·.isToOne), ∀ plan : JoinPlan,
      ∃ list plan', (associationColumns schema root true a).run plan = .ok (list, plan') := by
    intro a ha
    obtain ⟨ha, htoOne⟩ := List.mem_filter.1 ha
    exact exists_run_associationColumns
      (exists_ensure_single htargets hnames ha htoOne (hnamed a ha htoOne))
  obtain ⟨lists, plan', hlists⟩ := exists_run_mapM hruns plan
  refine ⟨⟨fieldColumns 0 "" root ++ lists.flatMap columns, lists.flatMap fetched⟩, plan', ?_⟩
  unfold ofEntity
  exact run_bind_iff.2 ⟨lists, plan', hlists, run_pure_iff.2 ⟨rfl, rfl⟩⟩

end SelectList

/-! ### Whole queries -/

/-- The same query for another target. -/
def Query.withTarget (q : Query) (target : Target) : Query := { q with target }

namespace Select

open Planning

/-- A table that is reached in one plan can be reached in any other one. -/
theorem exists_run_reach {r : Resolution} (hplanned : Planned schema root plan'.joins)
    (h : (Planning.reach schema root r).run plan = .ok ((), plan')) (other : JoinPlan) :
    ∃ other', (Planning.reach schema root r).run other = .ok ((), other') ∧
      ∀ path, r.joinPath? = some path → path ∈ other'.paths := by
  unfold Planning.reach at h ⊢
  cases hpath : r.joinPath? with
  | some path =>
    simp only [hpath] at h ⊢
    obtain ⟨other', hensure⟩ := exists_ensure hplanned
      (mem_paths_of_ensure (run_ensure_iff.1 h)) other .reading
    refine ⟨other', run_ensure_iff.2 hensure, fun path' hsame => ?_⟩
    obtain rfl := Option.some.inj hsame
    exact mem_paths_of_ensure hensure
  | none => exact ⟨other, run_pure_iff.2 ⟨rfl, rfl⟩, nofun⟩

/-- A term of the order in one plan can be had in any other one. -/
theorem exists_run_orderTerm {d : SortDirective} {t : Column × Direction}
    (hplanned : Planned schema root plan.joins)
    (h : (orderTerm schema root d).run plan = .ok (t, plan')) (other : JoinPlan) :
    ∃ t' other', (orderTerm schema root d).run other = .ok (t', other') := by
  obtain ⟨r, hr, hfield, hreach, _⟩ := run_orderTerm_iff.1 h
  obtain ⟨needs, _, hserves⟩ := run_reach hreach
  obtain ⟨other', hreach', hjoined⟩ := exists_run_reach (hserves.planned hplanned) hreach other
  have hresolved := resolved_of_resolve hr
  -- A field of the root needs no join; what lies behind associations was joined for it.
  have hparent : d.path.parent.segments = [] ∨ d.path.parent ∈ other'.paths := by
    by_cases hempty : d.path.parent.segments = []
    · exact .inl hempty
    · exact .inr (hjoined _ (by rw [hresolved.joinPath?, if_neg hempty]))
  obtain ⟨table, htable⟩ := exists_table hparent
  obtain ⟨f, hterminal⟩ := Resolution.isField_iff.1 hfield
  refine ⟨(⟨table, f.column⟩, d.direction), other', run_orderTerm_iff.2
    ⟨r, hr, hfield, hreach', ⟨some f.type, ?_⟩, rfl⟩⟩
  unfold JoinPlan.column
  rw [lift_eq_ok_iff.2 hr, ok_bind, htable, ok_bind, hterminal]
  rfl

/-- An order that was planned once can be planned again from any other plan. -/
theorem exists_run_orderTerms {order : SortOrder} {terms : List (Column × Direction)}
    (hplanned : Planned schema root plan.joins)
    (h : (orderTerms schema root order).run plan = .ok (terms, plan')) (other : JoinPlan) :
    ∃ terms' other', (orderTerms schema root order).run other = .ok (terms', other') := by
  unfold orderTerms at h ⊢
  split at h
  · rename_i hempty
    rw [if_pos hempty]
    simp only [run_bind_iff, run_lift_iff, run_pure_iff] at h ⊢
    obtain ⟨key, _, ⟨hkey, rfl⟩, _, _⟩ := h
    exact ⟨_, other, key, other, ⟨hkey, rfl⟩, rfl, rfl⟩
  · rename_i hsome
    rw [if_neg hsome]
    clear hsome
    induction order generalizing plan terms other with
    | nil => exact ⟨[], other, by rw [List.mapM_nil, run_pure_iff]; exact ⟨rfl, rfl⟩⟩
    -- Every term is planned from the plan the other terms have left, so the induction is for all plans.
    | cons d order ih =>
      rw [List.mapM_cons] at h ⊢
      simp only [run_bind_iff, run_pure_iff] at h ⊢
      obtain ⟨t, mid, hterm, rest, _, hrest, rfl, rfl⟩ := h
      obtain ⟨_, _, _, hreach, _⟩ := run_orderTerm_iff.1 hterm
      obtain ⟨needs, _, hserves⟩ := run_reach hreach
      obtain ⟨t', mid', hterm'⟩ := exists_run_orderTerm hplanned hterm other
      obtain ⟨rest', other', hrest'⟩ := ih (hserves.planned hplanned) mid' hrest
      exact ⟨_, other', t', mid', hterm', rest', other', hrest', rfl, rfl⟩

/-- What is compared is read from tables that were joined before anything was read. -/
theorem column_of_deciding {q : Query} {deciding : JoinPlan}
    (hserves : Serves schema q.entity
      (requestNeeds q.joins ++ testNeeds schema q.entity q.predicate) {} deciding)
    (hreads : Reads schema q.entity deciding plan) {p : Predicate} (hp : q.predicate = some p)
    {path : Path} (hpath : path ∈ p.paths) :
    plan.column schema q.entity path = deciding.column schema q.entity path := by
  unfold JoinPlan.column
  cases hr : schema.resolve q.entity path with
  | error => rfl
  | ok r =>
    have hparent : path.parent.segments = [] ∨ path.parent ∈ deciding.paths := by
      by_cases hempty : path.parent.segments = []
      · exact .inl hempty
      · obtain ⟨j, hj, hjpath, _⟩ := exists_deciding hserves hp hpath hr hempty
        exact .inr (mem_paths.2 ⟨j, hj, hjpath⟩)
    obtain ⟨table, htable⟩ := exists_table hparent
    rw [htable, hreads.table_stays htable]

/-- What is read after the deciding joins does not change the condition. -/
theorem mapM_conditionOf_of_deciding {q : Query} {deciding : JoinPlan}
    (hserves : Serves schema q.entity
      (requestNeeds q.joins ++ testNeeds schema q.entity q.predicate) {} deciding)
    (hreads : Reads schema q.entity deciding plan) (hreads' : Reads schema q.entity deciding plan') :
    q.predicate.mapM (conditionOf schema q.entity plan') =
      q.predicate.mapM (conditionOf schema q.entity plan) := by
  cases hp : q.predicate with
  | none => rfl
  | some p =>
    have hsame : conditionOf schema q.entity plan' p = conditionOf schema q.entity plan p :=
      ofPredicate_congr fun path hpath => by
        rw [column_of_deciding hserves hreads' hp hpath, column_of_deciding hserves hreads hp hpath]
    rw [Option.mapM_some, Option.mapM_some, hsame]

/-- Planning that succeeds step by step makes a select. -/
theorem exists_ofQuery_of_runs {q : Query} {deciding middle final : JoinPlan} {list : SelectList}
    {order : List (Column × Direction)} {condition : Option (Condition Column)}
    (hjoins : (planJoins schema q).run {} = .ok ((), deciding))
    (hlist : (SelectList.ofQuery schema q).run deciding = .ok (list, middle))
    (horder : (orderTerms schema q.entity q.order).run middle = .ok (order, final))
    (hcondition : q.predicate.mapM (conditionOf schema q.entity final) = .ok condition)
    (hdistinct : q.distinct = true → ∃ key, q.entity.idColumn = .ok key) :
    ∃ s, Select.ofQuery schema q = .ok s := by
  -- The three steps are one run, from the empty plan.
  have hrun : StateT.run (do
      planJoins schema q
      let list ← SelectList.ofQuery schema q
      let order ← orderTerms schema q.entity q.order
      return (list, order)) {} = Except.ok ((list, order), final) := by
    simp only [run_bind_iff, run_pure_iff]
    exact ⟨(), deciding, hjoins, list, middle, hlist, order, final, horder, rfl, rfl⟩
  unfold Select.ofQuery
  rw [hrun, ok_bind]
  dsimp only
  rw [hcondition, ok_bind]
  cases hd : q.distinct with
  | false => exact ⟨_, rfl⟩
  | true =>
    obtain ⟨key, hkey⟩ := hdistinct hd
    rw [if_pos rfl, hkey]
    exact ⟨_, rfl⟩

/-- **A query compiles with another target and order** as soon as the columns of that target can be
    chosen, and that order found, where those of the query were. -/
theorem exists_ofQuery_of_steps {q : Query} {s : Select} (h : Select.ofQuery schema q = .ok s)
    (target : Target) (order : SortOrder)
    (hlist : ∀ {plan list plan'}, (planJoins schema q).run {} = .ok ((), plan) →
      (SelectList.ofQuery schema q).run plan = .ok (list, plan') → ∃ list' other,
        (SelectList.ofQuery schema { q with target, order }).run plan = .ok (list', other))
    (horder : ∀ {plan terms plan'}, Planned schema q.entity plan.joins →
      (orderTerms schema q.entity q.order).run plan = .ok (terms, plan') → ∀ other,
        ∃ terms' other', (orderTerms schema q.entity order).run other = .ok (terms', other')) :
    ∃ s', Select.ofQuery schema { q with target, order } = .ok s' := by
  obtain ⟨deciding, middle, hjoins, hchosen, hterms, _, hcondition, hdistinct, _⟩ := ofQuery_eq_ok h
  have hserves := run_planJoins hjoins
  obtain ⟨needs, hreading, hmiddle⟩ := (SelectList.run_ofQuery hchosen).1
  have hplanned := hmiddle.planned (hserves.planned .nil)
  obtain ⟨list, middle', hlist⟩ := hlist hjoins hchosen
  obtain ⟨terms, final, horder⟩ := horder hplanned hterms middle'
  have hreads : Reads schema q.entity deciding s.plan :=
    Reads.trans ⟨needs, hreading, hmiddle⟩ (run_orderTerms hterms).1
  have hreads' : Reads schema q.entity deciding final :=
    (SelectList.run_ofQuery hlist).1.trans (run_orderTerms horder).1
  -- The conditions are the same, since the compared columns were settled before the list.
  have hcondition' : q.predicate.mapM (conditionOf schema q.entity final) = .ok s.condition :=
    (mapM_conditionOf_of_deciding hserves hreads hreads').trans hcondition
  exact exists_ofQuery_of_runs (q := { q with target, order }) hjoins hlist horder hcondition'
    fun hd => (hdistinct hd).imp fun _ hkey => hkey.1

/-- **A query compiles with another target** as soon as the columns of that target can be chosen. -/
theorem exists_ofQuery {q : Query} {s : Select} (h : Select.ofQuery schema q = .ok s)
    (target : Target)
    (hlist : ∀ plan, ∃ list plan',
      (SelectList.ofQuery schema (q.withTarget target)).run plan = .ok (list, plan')) :
    ∃ s', Select.ofQuery schema (q.withTarget target) = .ok s' :=
  exists_ofQuery_of_steps h target q.order (fun _ _ => hlist _) exists_run_orderTerms

end Select

end EntityQuery
