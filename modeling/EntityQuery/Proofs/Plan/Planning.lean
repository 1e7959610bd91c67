import EntityQuery.Proofs.Plan.Needs

namespace EntityQuery

open JoinPlan

/-!
# Planning a query

Which needs the planning of a query serves, step by step: the joins that the caller wrote, those of
the predicate, and then only needs that read, for the select list and for the order.  Each step also
says which tables its columns are read from.  `plannedFor_of_ofQuery` puts the steps together.
-/

variable {schema : Schema} {root : Entity} {plan plan' : JoinPlan} {α β : Type}

namespace Planning

/-! ### Successful runs -/

/-- A sequence of planning steps runs exactly if both do, the second one from where the first one stops. -/
theorem run_bind_iff {x : Planning α} {f : α → Planning β} {b : β} :
    (x >>= f).run plan = .ok (b, plan') ↔
      ∃ a mid, x.run plan = .ok (a, mid) ∧ (f a).run mid = .ok (b, plan') := by
  rw [StateT.run_bind, bind_eq_ok_iff]
  exact ⟨fun ⟨⟨a, mid⟩, h⟩ => ⟨a, mid, h⟩, fun ⟨a, mid, h⟩ => ⟨(a, mid), h⟩⟩

/-- A value that is just given leaves the plan as it is. -/
theorem run_pure_iff {a b : α} :
    (pure a : Planning α).run plan = .ok (b, plan') ↔ a = b ∧ plan = plan' := by
  rw [StateT.run_pure, pure_eq_ok_iff, Prod.mk.injEq]

/-- Looking at the plan leaves it as it is. -/
theorem run_get_iff {p : JoinPlan} :
    (get : Planning JoinPlan).run plan = .ok (p, plan') ↔ plan = p ∧ plan = plan' := by
  rw [StateT.run_get, pure_eq_ok_iff, Prod.mk.injEq]

/-- So does what needs no plan. -/
theorem run_lift_iff {x : Except CompileDefect α} {a : α} :
    (liftM x : Planning α).run plan = .ok (a, plan') ↔ x = .ok a ∧ plan = plan' := by
  cases x with
  | error e => exact ⟨nofun, nofun⟩
  | ok b =>
    show Except.ok (b, plan) = Except.ok (a, plan') ↔ _
    simp

/-- A failure is no result. -/
theorem run_throw_ne {e : CompileDefect} {a : α} :
    (throw e : Planning α).run plan ≠ .ok (a, plan') := nofun

/-- Ensuring a path as a planning step. -/
theorem run_ensure_iff {need : JoinNeed} {path : Path} {u : Unit} :
    (ensure schema root need path).run plan = .ok (u, plan') ↔
      plan.ensure schema root need path = .ok plan' := by
  unfold ensure
  simp only [run_bind_iff, run_get_iff, run_lift_iff]
  constructor
  · rintro ⟨_, _, ⟨rfl, rfl⟩, p, _, ⟨hensure, rfl⟩, hset⟩
    obtain rfl : p = plan' := congrArg Prod.snd (Except.ok.inj hset)
    exact hensure
  · intro hensure
    exact ⟨plan, plan, ⟨rfl, rfl⟩, plan', plan, ⟨hensure, rfl⟩, rfl⟩

/-- Reading item by item: what is good of each answer stays good while further ones are read. -/
theorem run_mapM_forall₂ {f : β → Planning α} (good : JoinPlan → β → α → Prop)
    (hstays : ∀ {p p' b a}, Reads schema root p p' → good p b a → good p' b a)
    (hstep : ∀ {b p a p'}, (f b).run p = .ok (a, p') → Reads schema root p p' ∧ good p' b a)
    {items : List β} {answers : List α} (h : (items.mapM f).run plan = .ok (answers, plan')) :
    Reads schema root plan plan' ∧ List.Forall₂ (good plan') items answers := by
  induction items generalizing plan answers with
  | nil =>
    rw [List.mapM_nil, run_pure_iff] at h
    obtain ⟨rfl, rfl⟩ := h
    exact ⟨Reads.refl, .nil⟩
  | cons item items ih =>
    rw [List.mapM_cons] at h
    simp only [run_bind_iff, run_pure_iff] at h
    obtain ⟨a, mid, hitem, rest, mid', hrest, rfl, rfl⟩ := h
    -- What the first item got is still good in the plan that the others leave.
    obtain ⟨hreads, hgood⟩ := hstep hitem
    obtain ⟨hreads', hgoods⟩ := ih hrest
    exact ⟨hreads.trans hreads', .cons (hstays hreads' hgood) hgoods⟩

/-- The same where the answers alone are looked at. -/
theorem run_mapM {f : β → Planning α} (good : JoinPlan → α → Prop)
    (hstays : ∀ {p p' a}, Reads schema root p p' → good p a → good p' a)
    (hstep : ∀ {b p a p'}, (f b).run p = .ok (a, p') → Reads schema root p p' ∧ good p' a)
    {items : List β} {answers : List α} (h : (items.mapM f).run plan = .ok (answers, plan')) :
    Reads schema root plan plan' ∧ ∀ a ∈ answers, good plan' a := by
  obtain ⟨hreads, hgoods⟩ := run_mapM_forall₂ (fun p _ a => good p a) hstays hstep h
  refine ⟨hreads, fun a ha => ?_⟩
  obtain ⟨_, _, hgood⟩ := exists_left_of_forall₂ hgoods ha
  exact hgood

/-- Serving the needs of one item after the other. -/
theorem run_forM {f : β → Planning Unit} (needs : β → List (JoinNeed × Path))
    (hstep : ∀ {b p p' u}, (f b).run p = .ok (u, p') → Serves schema root (needs b) p p')
    {items : List β} {u : Unit} (h : (items.forM f).run plan = .ok (u, plan')) :
    Serves schema root (items.flatMap needs) plan plan' := by
  induction items generalizing plan with
  | nil =>
    obtain ⟨_, rfl⟩ := run_pure_iff.1 h
    exact .nil
  | cons item items ih =>
    obtain ⟨_, mid, hitem, hrest⟩ := run_bind_iff.1 h
    exact (hstep hitem).append (ih hrest)

end Planning

/-! ### Columns of select lists -/

/-- All columns of a list are read from known tables. -/
def JoinPlan.KnowsAll (plan : JoinPlan) (columns : List SelectColumn) : Prop :=
  ∀ c ∈ columns, plan.Knows c.column.table

/-- Columns whose tables are known stay so. -/
theorem JoinPlan.Reads.knowsAll (h : Reads schema root plan plan') {columns : List SelectColumn}
    (hknows : plan.KnowsAll columns) : plan'.KnowsAll columns :=
  fun c hc => h.knows (hknows c hc)

/-- Reaching what a path ends in only reads. -/
theorem Planning.run_reach {r : Resolution} {u : Unit}
    (h : (Planning.reach schema root r).run plan = .ok (u, plan')) :
    Reads schema root plan plan' := by
  unfold Planning.reach at h
  split at h
  · exact .of_ensure isReading_reading (Planning.run_ensure_iff.1 h)
  · obtain ⟨_, rfl⟩ := Planning.run_pure_iff.1 h
    exact .refl

namespace SelectList

open Planning

/-- The column of a path is in a table of the plan that has been reached for it. -/
theorem run_pathColumn {path : Path} {label : String} {c : SelectColumn}
    (h : (pathColumn schema root path label).run plan = .ok (c, plan')) :
    Reads schema root plan plan' ∧ plan'.Knows c.column.table := by
  unfold pathColumn at h
  obtain ⟨r, _, hresolve, h⟩ := run_bind_iff.1 h
  obtain ⟨_, rfl⟩ := run_lift_iff.1 hresolve
  split at h
  · obtain ⟨_, _, hthrow, _⟩ := run_bind_iff.1 h
    exact absurd hthrow run_throw_ne
  · simp only [run_bind_iff, run_get_iff, run_lift_iff, run_pure_iff] at h
    obtain ⟨_, mid, hreach, _, _, ⟨rfl, rfl⟩, ⟨column, type⟩, _, ⟨hcolumn, rfl⟩, rfl, rfl⟩ := h
    exact ⟨run_reach hreach, knows_of_column hcolumn⟩

/-- The columns of an entity's fields are in its table. -/
theorem knowsAll_fieldColumns {table : Nat} (h : plan.Knows table) (before : String) (e : Entity) :
    plan.KnowsAll (fieldColumns table before e) := by
  intro c hc
  obtain ⟨f, _, rfl⟩ := List.mem_map.1 hc
  exact h

/-- So is the key of an association. -/
theorem knows_keyColumn {table : Nat} (h : plan.Knows table) {before : String} {a : Association}
    {c : SelectColumn} (hc : keyColumn table before a = some c) : plan.Knows c.column.table := by
  obtain ⟨_, _, rfl⟩ := Option.map_eq_some_iff.1 hc
  exact h

/-- What is read for an association is in the root's table or in that of its join. -/
theorem run_associationColumns {fetchAll : Bool} {a : Association} {list : SelectList}
    (h : (associationColumns schema root fetchAll a).run plan = .ok (list, plan')) :
    Reads schema root plan plan' ∧ plan'.KnowsAll list.columns := by
  -- Fetching everything only puts one more need in front.
  obtain ⟨mid, hfirst, h⟩ : ∃ mid, Reads schema root plan mid ∧
      (associationColumns schema root false a).run mid = .ok (list, plan') := by
    cases fetchAll with
    | false => exact ⟨plan, .refl, h⟩
    | true =>
      obtain ⟨_, mid, hensure, h⟩ := run_bind_iff.1 h
      exact ⟨mid, .of_ensure isReading_fetching (run_ensure_iff.1 hensure), h⟩
  obtain ⟨_, _, hget, h⟩ := run_bind_iff.1 h
  obtain ⟨rfl, rfl⟩ := run_get_iff.1 hget
  split at h
  · simp only [run_bind_iff, run_get_iff] at h
    obtain ⟨_, _, hensure, _, _, ⟨rfl, rfl⟩, h⟩ := h
    have hreads := hfirst.trans (.of_ensure isReading_fetching (run_ensure_iff.1 hensure))
    split at h
    · exact absurd h run_throw_ne
    · rename_i join hfind
      obtain ⟨rfl, rfl⟩ := run_pure_iff.1 h
      have hknows := JoinPlan.Knows.of_mem (mem_of_find? hfind).1
      refine ⟨hreads, List.forall_mem_append.2 ⟨knowsAll_fieldColumns hknows _ _, fun c hc => ?_⟩⟩
      obtain ⟨_, _, hc⟩ := List.mem_filterMap.1 hc
      exact knows_keyColumn hknows hc
  · obtain ⟨rfl, rfl⟩ := run_pure_iff.1 h
    exact ⟨hfirst, fun c hc => knows_keyColumn knows_root (Option.mem_toList.1 hc)⟩

/-- And so is what is read for the whole record. -/
theorem run_ofEntity {fetchAll : Bool} {list : SelectList}
    (h : (ofEntity schema root fetchAll).run plan = .ok (list, plan')) :
    Reads schema root plan plan' ∧ plan'.KnowsAll list.columns := by
  unfold ofEntity at h
  simp only [run_bind_iff, run_pure_iff] at h
  obtain ⟨lists, _, hlists, rfl, rfl⟩ := h
  obtain ⟨hreads, hknows⟩ := run_mapM (fun p list => p.KnowsAll list.columns)
    (fun hreads => hreads.knowsAll) run_associationColumns hlists
  refine ⟨hreads, List.forall_mem_append.2 ⟨knowsAll_fieldColumns knows_root _ _, fun c hc => ?_⟩⟩
  obtain ⟨list, hlist, hc⟩ := List.mem_flatMap.1 hc
  exact hknows list hlist c hc

/-- Columns of paths, chosen one by one. -/
theorem run_mapM_pathColumn (f : β → Path × String) {items : List β} {columns : List SelectColumn}
    (h : (items.mapM fun item => pathColumn schema root (f item).1 (f item).2).run plan =
      .ok (columns, plan')) :
    Reads schema root plan plan' ∧ plan'.KnowsAll columns :=
  run_mapM (fun p c => p.Knows c.column.table) (fun hreads => hreads.knows)
    run_pathColumn h

/-- What is written as selected is in tables of the plan. -/
theorem run_ofSelections {selections : List Selection} {list : SelectList}
    (h : (ofSelections schema root selections).run plan = .ok (list, plan')) :
    Reads schema root plan plan' ∧ plan'.KnowsAll list.columns := by
  unfold ofSelections at h
  simp only [run_bind_iff, run_pure_iff] at h
  obtain ⟨columns, _, hcolumns, rfl, rfl⟩ := h
  exact run_mapM_pathColumn (fun s : Selection => (s.path, s.label)) hcolumns

/-- What a view's accessor reads is in tables of the plan. -/
theorem run_accessorColumns {view : String} {accessor : Accessor} {columns : List SelectColumn}
    (h : (accessorColumns schema root view accessor).run plan = .ok (columns, plan')) :
    Reads schema root plan plan' ∧ plan'.KnowsAll columns := by
  cases accessor with
  | field name =>
    simp only [accessorColumns] at h
    split at h
    · obtain ⟨rfl, rfl⟩ := run_pure_iff.1 h
      exact ⟨.refl, List.forall_mem_singleton.2 knows_root⟩
    · exact absurd h run_throw_ne
  | nested name nested =>
    simp only [accessorColumns] at h
    split at h
    · exact absurd h run_throw_ne
    · rename_i key hkey
      simp only [run_bind_iff, run_pure_iff] at h
      obtain ⟨_, mid, hensure, inner, _, hinner, rfl, rfl⟩ := h
      -- The key tells whether there is anything behind the association, so it is read with the nested
      -- columns.
      have hreads := Reads.of_ensure isReading_reading (run_ensure_iff.1 hensure)
      obtain ⟨hreads', hknows⟩ := run_mapM (fun p c => p.Knows c.column.table)
        (fun hreads => hreads.knows) (fun {inner _ _ _} hrun => by
          cases inner with
          | field => exact run_pathColumn hrun
          | nested => exact absurd hrun run_throw_ne) hinner
      obtain ⟨a, _, hkey⟩ := Option.bind_eq_some_iff.1 hkey
      exact ⟨hreads.trans hreads', List.forall_mem_cons.2 ⟨knows_keyColumn knows_root hkey, hknows⟩⟩

/-- So is what a whole view reads. -/
theorem run_ofClosedView {view : ClosedView} {list : SelectList}
    (h : (ofClosedView schema root view).run plan = .ok (list, plan')) :
    Reads schema root plan plan' ∧ plan'.KnowsAll list.columns := by
  unfold ofClosedView at h
  simp only [run_bind_iff, run_pure_iff] at h
  obtain ⟨lists, _, hlists, rfl, rfl⟩ := h
  obtain ⟨hreads, hknows⟩ := run_mapM JoinPlan.KnowsAll
    (fun hreads => hreads.knowsAll) run_accessorColumns hlists
  refine ⟨hreads, fun c hc => ?_⟩
  obtain ⟨columns, hcolumns, hc⟩ := List.mem_flatten.1 hc
  exact hknows columns hcolumns c hc

/-- And what a constructor is given. -/
theorem run_ofConstructor {shape : Constructor} {list : SelectList}
    (h : (ofConstructor schema root shape).run plan = .ok (list, plan')) :
    Reads schema root plan plan' ∧ plan'.KnowsAll list.columns := by
  unfold ofConstructor at h
  obtain ⟨columns, _, hcolumns, h⟩ := run_bind_iff.1 h
  obtain ⟨hreads, hknows⟩ := run_mapM_pathColumn id hcolumns
  split at h
  · simp only [run_bind_iff, run_lift_iff, run_pure_iff] at h
    obtain ⟨_, _, ⟨_, rfl⟩, rfl, rfl⟩ := h
    exact ⟨hreads, List.forall_mem_singleton.2 knows_root⟩
  · obtain ⟨rfl, rfl⟩ := run_pure_iff.1 h
    exact ⟨hreads, hknows⟩

/-- **Select lists only read.**  Whatever the target, choosing the columns adds joins that neither
    filter nor drop rows, and every column is read from a table that is joined in the end. -/
theorem run_ofQuery {q : Query} {list : SelectList}
    (h : (ofQuery schema q).run plan = .ok (list, plan')) :
    Reads schema q.entity plan plan' ∧ plan'.KnowsAll list.columns := by
  -- One case for each kind of target; a single column has a case of its own.
  unfold ofQuery at h
  split at h
  · exact run_ofEntity h
  · exact run_ofEntity h
  · exact absurd h run_throw_ne
  · split at h
    · simp only [run_bind_iff, run_pure_iff] at h
      obtain ⟨c, _, hc, rfl, rfl⟩ := h
      obtain ⟨hreads, hknows⟩ := run_pathColumn hc
      exact ⟨hreads, List.forall_mem_singleton.2 hknows⟩
    · exact run_ofSelections h
  · split at h
    · exact run_ofClosedView h
    · exact run_ofSelections h
  · split at h
    · exact run_ofConstructor h
    · exact run_ofSelections h

end SelectList

namespace Select

open Planning

/-! ### Order -/

/-- What a term of the order is: the column of its path, in the direction that was asked for. -/
def OrderColumn (schema : Schema) (root : Entity) (plan : JoinPlan) (d : SortDirective)
    (t : Column × Direction) : Prop :=
  (∃ type, plan.column schema root d.path = .ok (t.1, type)) ∧ t.2 = d.direction

/-- A term of the order is a field, whose table is reached. -/
theorem run_orderTerm_iff {d : SortDirective} {t : Column × Direction} :
    (orderTerm schema root d).run plan = .ok (t, plan') ↔
      ∃ r, schema.resolve root d.path = .ok r ∧ r.isField = true ∧
        (Planning.reach schema root r).run plan = .ok ((), plan') ∧
        OrderColumn schema root plan' d t := by
  unfold orderTerm OrderColumn
  constructor
  · intro h
    obtain ⟨r, _, hresolve, h⟩ := run_bind_iff.1 h
    obtain ⟨hr, rfl⟩ := run_lift_iff.1 hresolve
    -- What is no field is refused before anything is joined for it.
    split at h
    · obtain ⟨_, _, hthrow, _⟩ := run_bind_iff.1 h
      exact absurd hthrow run_throw_ne
    · rename_i hfield
      simp only [run_bind_iff, run_get_iff, run_lift_iff, run_pure_iff] at h
      obtain ⟨_, mid, hreach, _, _, ⟨rfl, rfl⟩, ⟨column, type⟩, _, ⟨hcolumn, rfl⟩, rfl, rfl⟩ := h
      exact ⟨r, lift_eq_ok_iff.1 hr, by simpa using hfield, hreach, ⟨type, hcolumn⟩, rfl⟩
  · rintro ⟨r, hr, hfield, hreach, ⟨type, hcolumn⟩, hdirection⟩
    refine run_bind_iff.2 ⟨r, plan, run_lift_iff.2 ⟨lift_eq_ok_iff.2 hr, rfl⟩, ?_⟩
    rw [if_neg (by simp [hfield])]
    simp only [run_bind_iff, run_get_iff, run_lift_iff, run_pure_iff]
    exact ⟨(), plan', hreach, plan', plan', ⟨rfl, rfl⟩, (t.1, type), plan', ⟨hcolumn, rfl⟩,
      Prod.ext rfl hdirection.symm, rfl⟩

/-- What the order of a query is: the columns of its directives, or else the identifier. -/
def OrderColumns (schema : Schema) (root : Entity) (plan : JoinPlan) (order : SortOrder)
    (terms : List (Column × Direction)) : Prop :=
  if order.isEmpty then ∃ key, root.idColumn = .ok key ∧ terms = [(⟨0, key⟩, .ascending)]
  else List.Forall₂ (OrderColumn schema root plan) order terms

/-- The columns of an order are in tables of the plan. -/
theorem OrderColumns.knows {order : SortOrder} {terms : List (Column × Direction)}
    (h : OrderColumns schema root plan order terms) : ∀ t ∈ terms, plan.Knows t.1.table := by
  unfold OrderColumns at h
  split at h
  · obtain ⟨_, _, rfl⟩ := h
    exact List.forall_mem_singleton.2 knows_root
  · intro t ht
    obtain ⟨_, _, ⟨_, hcolumn⟩, _⟩ := exists_left_of_forall₂ h ht
    exact knows_of_column hcolumn

/-- The columns of an order are those of its directives, or the identifier where there are none. -/
theorem run_orderTerms {order : SortOrder} {terms : List (Column × Direction)}
    (h : (orderTerms schema root order).run plan = .ok (terms, plan')) :
    Reads schema root plan plan' ∧ OrderColumns schema root plan' order terms := by
  unfold orderTerms at h
  unfold OrderColumns
  split at h
  · rename_i hempty
    rw [if_pos hempty]
    simp only [run_bind_iff, run_lift_iff, run_pure_iff] at h
    obtain ⟨key, _, ⟨hkey, rfl⟩, rfl, rfl⟩ := h
    exact ⟨.refl, key, hkey, rfl⟩
  · rename_i hsome
    rw [if_neg hsome]
    refine run_mapM_forall₂ (OrderColumn schema root) (fun hreads hterm => ?_) (fun hterm => ?_) h
    -- A term keeps its column when later terms are joined.
    · obtain ⟨⟨type, hcolumn⟩, hdirection⟩ := hterm
      exact ⟨⟨type, hreads.column_stays hcolumn⟩, hdirection⟩
    · obtain ⟨_, _, _, hreach, hterm⟩ := run_orderTerm_iff.1 hterm
      exact ⟨run_reach hreach, hterm⟩

/-! ### Joins of the caller and of the predicate -/

/-- The needs of the joins that the caller wrote. -/
def requestNeeds (joins : List JoinRequest) : List (JoinNeed × Path) :=
  joins.map fun request => (.requested request, request.path)

/-- The need of a comparison whose property lies behind an association. -/
def testNeed (schema : Schema) (root : Entity) (c : Predicate.Comparison) :
    Option (JoinNeed × Path) :=
  ((schema.resolve root c.path).toOption.bind Resolution.joinPath?).map fun path =>
    (.testing (if c.required && c.operator.rejectsNull then .inner else .left), path)

/-- The needs of a predicate. -/
def testNeeds (schema : Schema) (root : Entity) (predicate : Option Predicate) :
    List (JoinNeed × Path) :=
  ((predicate.map Predicate.comparisons).getD []).filterMap (testNeed schema root)

/-- The joins that decide which rows there are: first those the caller wrote, then those of the condition. -/
theorem run_planJoins {q : Query} {u : Unit} (h : (planJoins schema q).run plan = .ok (u, plan')) :
    Serves schema q.entity (requestNeeds q.joins ++ testNeeds schema q.entity q.predicate)
      plan plan' := by
  unfold planJoins at h
  obtain ⟨_, mid, hrequests, htests⟩ := run_bind_iff.1 h
  have hserved : Serves schema q.entity (requestNeeds q.joins) plan mid := by
    rw [requestNeeds, List.map_eq_flatMap]
    exact run_forM _ (fun hrun => .single (run_ensure_iff.1 hrun)) hrequests
  have htested : Serves schema q.entity (testNeeds schema q.entity q.predicate) mid plan' := by
    rw [testNeeds, List.filterMap_eq_flatMap_toList]
    refine run_forM _ (fun {c p p' _} hrun => ?_) htests
    obtain ⟨r, _, hlift, hrun⟩ := run_bind_iff.1 hrun
    obtain ⟨hr, rfl⟩ := run_lift_iff.1 hlift
    have hresolve := lift_eq_ok_iff.1 hr
    dsimp only at hrun
    split at hrun
    · -- The property lies behind an association, which is joined.
      rename_i path hpath
      have hneed : testNeed schema q.entity c =
          some (.testing (if c.required && c.operator.rejectsNull then .inner else .left), path) := by
        simp only [testNeed, hresolve, Except.toOption, Option.bind_some, hpath, Option.map_some]
      rw [hneed]
      exact .single (run_ensure_iff.1 hrun)
    · -- It is a property of the root itself.
      rename_i hpath
      have hneed : testNeed schema q.entity c = none := by
        simp only [testNeed, hresolve, Except.toOption, Option.bind_some, hpath, Option.map_none]
      obtain ⟨_, rfl⟩ := run_pure_iff.1 hrun
      rw [hneed]
      exact .nil
  exact hserved.append htested

/-- The comparisons of a predicate are comparisons of its paths. -/
theorem map_path_comparisonsWhen (p : Predicate) (required : Bool) :
    (p.comparisonsWhen required).map Predicate.Comparison.path = p.paths := by
  induction p generalizing required with
  | comparison => rfl
  | and l r ihl ihr | or l r ihl ihr =>
    rw [Predicate.comparisonsWhen, List.map_append, ihl, ihr, Predicate.paths]

/-- The joins that decide lead to the tables of all compared properties. -/
theorem exists_deciding {q : Query} {deciding : JoinPlan}
    (hserves : Serves schema q.entity
      (requestNeeds q.joins ++ testNeeds schema q.entity q.predicate) {} deciding)
    {p : Predicate} (hp : q.predicate = some p) {path : Path} (hpath : path ∈ p.paths)
    {r : Resolution} (hr : schema.resolve q.entity path = .ok r)
    (hnested : path.parent.segments ≠ []) :
    ∃ j ∈ deciding.joins, j.path = path.parent ∧ j.filtering = true := by
  rw [← map_path_comparisonsWhen p true] at hpath
  obtain ⟨c, hc, rfl⟩ := List.mem_map.1 hpath
  have hjoinPath : r.joinPath? = some c.path.parent := by
    rw [(resolved_of_resolve hr).joinPath?, if_neg hnested]
  have hneed : testNeed schema q.entity c = some (.testing
      (if c.required && c.operator.rejectsNull then .inner else .left), c.path.parent) := by
    simp only [testNeed, hr, Except.toOption, Option.bind_some, hjoinPath, Option.map_some]
  have hmem : _ ∈ testNeeds schema q.entity q.predicate :=
    List.mem_filterMap.2 ⟨c, by rw [hp]; exact hc, hneed⟩
  obtain ⟨j, hj, hjpath, hfiltering⟩ := hserves.reached (List.mem_append_right _ hmem)
  exact ⟨j, hj, hjpath, hfiltering rfl⟩

/-- Conditions depend on the columns of their paths alone. -/
theorem ofPredicate_congr {ε κ : Type} {column column' : Path → Except ε κ}
    {noOperand : Path → Operator → ε} {p : Predicate}
    (h : ∀ path ∈ p.paths, column path = column' path) :
    Condition.ofPredicate column noOperand p = Condition.ofPredicate column' noOperand p := by
  induction p with
  | comparison path operator operand =>
    rw [Condition.ofPredicate, Condition.ofPredicate, h path (List.mem_singleton_self path)]
  | and l r ihl ihr | or l r ihl ihr =>
    rw [Predicate.paths, List.forall_mem_append] at h
    rw [Condition.ofPredicate, Condition.ofPredicate, ihl h.1, ihr h.2]

/-! ### Whole queries -/

/-- **A select as it was planned.**  What is known of the select of a query besides its text. -/
structure PlannedFor (schema : Schema) (q : Query) (s : Select) : Prop where
  root : s.root = q.entity
  /-- The deciding joins come first, and from then on the plan only grows for reading. -/
  plan : ∃ deciding, Serves schema q.entity
      (requestNeeds q.joins ++ testNeeds schema q.entity q.predicate) {} deciding ∧
    Reads schema q.entity deciding s.plan
  list : s.plan.KnowsAll s.list.columns
  order : ∀ t ∈ s.order, s.plan.Knows t.1.table
  ordered : OrderColumns schema q.entity s.plan q.order s.order
  condition : q.predicate.mapM (conditionOf schema q.entity s.plan) = .ok s.condition
  distinct : q.distinct = true → ∃ key, q.entity.idColumn = .ok key ∧ s.distinctKey = some ⟨0, key⟩
  plain : q.distinct = false → s.distinctKey = none

/-- **The steps of planning**, one after the other, and what they leave in the select. -/
theorem ofQuery_eq_ok {q : Query} {s : Select} (h : Select.ofQuery schema q = .ok s) :
    ∃ deciding middle, (planJoins schema q).run {} = .ok ((), deciding) ∧
      (SelectList.ofQuery schema q).run deciding = .ok (s.list, middle) ∧
      (orderTerms schema q.entity q.order).run middle = .ok (s.order, s.plan) ∧
      s.root = q.entity ∧ q.predicate.mapM (conditionOf schema q.entity s.plan) = .ok s.condition ∧
      (q.distinct = true → ∃ key, q.entity.idColumn = .ok key ∧ s.distinctKey = some ⟨0, key⟩) ∧
      (q.distinct = false → s.distinctKey = none) := by
  unfold Select.ofQuery at h
  obtain ⟨⟨⟨_, _⟩, _⟩, hrun, h⟩ := bind_eq_ok_iff.1 h
  -- Joins, columns and order are planned in turn, each from the plan of the one before.
  simp only [run_bind_iff, run_pure_iff, Prod.mk.injEq] at hrun
  obtain ⟨_, deciding, hjoins, list, middle, hlist, order, final, horder, ⟨rfl, rfl⟩, rfl⟩ := hrun
  obtain ⟨condition, hcondition, h⟩ := bind_eq_ok_iff.1 h
  split at h
  · rename_i hd
    simp only [bind_eq_ok_iff, pure_eq_ok_iff] at h
    obtain ⟨key, hkey, _, rfl, rfl⟩ := h
    exact ⟨deciding, middle, hjoins, hlist, horder, rfl, hcondition, fun _ => ⟨key, hkey, rfl⟩,
      fun hplain => by simp [hd] at hplain⟩
  · rename_i hd
    simp only [bind_eq_ok_iff, pure_eq_ok_iff] at h
    obtain ⟨_, rfl, rfl⟩ := h
    exact ⟨deciding, middle, hjoins, hlist, horder, rfl, hcondition,
      fun hdistinct => absurd hdistinct hd, fun _ => rfl⟩

/-- A compiled query is planned for it. -/
theorem plannedFor_of_ofQuery {q : Query} {s : Select} (h : Select.ofQuery schema q = .ok s) :
    PlannedFor schema q s := by
  obtain ⟨deciding, _, hjoins, hlist, horder, hroot, hcondition, hdistinct, hplain⟩ :=
    ofQuery_eq_ok h
  obtain ⟨hreads, hlistKnows⟩ := SelectList.run_ofQuery hlist
  obtain ⟨hreads', hordered⟩ := run_orderTerms horder
  exact ⟨hroot, ⟨deciding, run_planJoins hjoins, hreads.trans hreads'⟩,
    hreads'.knowsAll hlistKnows, hordered.knows, hordered, hcondition, hdistinct, hplain⟩

namespace PlannedFor

variable {q : Query} {s : Select}

/-- The plan of a select is well linked. -/
theorem planned (h : PlannedFor schema q s) : Planned schema q.entity s.plan.joins := by
  obtain ⟨deciding, hserves, needs, _, hreads⟩ := h.plan
  exact hreads.planned (hserves.planned .nil)

/-- Every need of the first phase decides which rows there are. -/
theorem filtering_of_mem {n : JoinNeed × Path}
    (hn : n ∈ requestNeeds q.joins ++ testNeeds schema q.entity q.predicate) :
    n.1.filtering = true := by
  rcases List.mem_append.1 hn with hn | hn
  · obtain ⟨request, _, rfl⟩ := List.mem_map.1 hn
    rfl
  · obtain ⟨c, _, hneed⟩ := List.mem_filterMap.1 hn
    obtain ⟨path, _, rfl⟩ := Option.map_eq_some_iff.1 hneed
    rfl

/-- The joins that decide stand in front of all others. -/
theorem layered (h : PlannedFor schema q s) : s.plan.Layered := by
  obtain ⟨deciding, hserves, hreads⟩ := h.plan
  have hall := hserves.filtering (fun n hn => filtering_of_mem hn) nofun
  exact hreads.layered ⟨deciding.joins, [], (List.append_nil _).symm, hall, nofun⟩

/-- The filtering joins are well linked among themselves. -/
theorem planned_filtering (h : PlannedFor schema q s) :
    Planned schema q.entity s.plan.filtering.joins := by
  obtain ⟨back, hjoins, _⟩ := h.layered.filtering_append
  exact Planned.of_append back (hjoins ▸ h.planned)

/-- The table of a compared property is joined by a deciding join. -/
theorem exists_filtering (h : PlannedFor schema q s) {p : Predicate} (hp : q.predicate = some p)
    {path : Path} (hpath : path ∈ p.paths) {r : Resolution}
    (hr : schema.resolve q.entity path = .ok r) (hnested : path.parent.segments ≠ []) :
    ∃ j ∈ s.plan.filtering.joins, j.path = path.parent := by
  obtain ⟨deciding, hserves, needs, _, hreads⟩ := h.plan
  obtain ⟨j, hj, hjpath, hfiltering⟩ := exists_deciding hserves hp hpath hr hnested
  obtain ⟨j', hj', hbecame⟩ := hreads.keeps hj
  exact ⟨j', List.mem_filter.2 ⟨hj', hbecame.filtering hfiltering⟩, hbecame.path.trans hjpath⟩

/-- Counting finds the tables of compared properties under the same numbers. -/
theorem table_filtering (h : PlannedFor schema q s) {p : Predicate} (hp : q.predicate = some p)
    {path : Path} (hpath : path ∈ p.paths) {r : Resolution}
    (hr : schema.resolve q.entity path = .ok r) :
    s.plan.filtering.table path.parent = s.plan.table path.parent := by
  by_cases hnested : path.parent.segments = []
  · unfold JoinPlan.table
    rw [hnested]
    rfl
  · obtain ⟨j, hj, hjpath⟩ := h.exists_filtering hp hpath hr hnested
    obtain ⟨back, hjoins, _⟩ := h.layered.filtering_append
    -- Of the two plans one is the front of the other, and the path is joined in the front already.
    have hfind : s.plan.find? path.parent = s.plan.filtering.find? path.parent := by
      unfold find?
      have hsome : (s.plan.filtering.joins.find? fun j => j.path == path.parent).isSome = true :=
        List.find?_isSome.2 ⟨j, hj, beq_iff_eq.2 hjpath⟩
      rw [hjoins, List.find?_append, Option.or_of_isSome hsome]
    unfold JoinPlan.table
    rw [hfind]

/-- **Counting tests the same condition.**  The condition of a select is also the one over the
    filtering joins alone. -/
theorem condition_filtering (h : PlannedFor schema q s) :
    q.predicate.mapM (conditionOf schema q.entity s.plan.filtering) = .ok s.condition := by
  rw [← h.condition]
  cases hp : q.predicate with
  | none => rfl
  | some p =>
    -- Counting leaves out joins that only read, and no test of the condition needs one of these.
    have hcolumn : ∀ path ∈ p.paths, s.plan.filtering.column schema q.entity path =
        s.plan.column schema q.entity path := by
      intro path hpath
      unfold column
      cases hr : schema.resolve q.entity path with
      | error => rfl
      | ok r => rw [h.table_filtering hp hpath hr]
    have hcondition : conditionOf schema q.entity s.plan.filtering p =
        conditionOf schema q.entity s.plan p :=
      ofPredicate_congr fun path hpath => by rw [hcolumn path hpath]
    rw [Option.mapM_some, Option.mapM_some, hcondition]

end PlannedFor

end Select

end EntityQuery
