import EntityQuery.Proofs.Plan.Acceptance
import EntityQuery.Proofs.Result.Arguments
import EntityQuery.Proofs.Rows.Selected

namespace EntityQuery

open JoinPlan

/-!
# Selected paths

A select that names paths has one column for each of them (`SelectColumn.StandsFor`): with the type of
the field that the path ends in, and with what the path leads to in every row.  An explicit list has the
columns of its paths in written order (`Select.forall₂_selections`), a constructor those of the fields
that its parameters name (`Select.mem_columns_of_constructor`, `Select.exists_column_of_parameter`).
-/

/-- A selected column stands for a path: it has the type of the field at its end, and in each joined row
    of any database it holds what the path leads to from the root. -/
structure SelectColumn.StandsFor (schema : Schema) (s : Select) (path : Path) (c : SelectColumn) :
    Prop where
  type : ∃ r f, schema.resolve s.root path = .ok r ∧ r.terminal = .field f ∧ c.type = some f.type
  value : ∀ (db : Database schema) start joined, Follows db s.root start s.plan.joins joined →
    joined.value c.column = db.read s.root start path

/-- The column that a plan has for a path which ends in a field. -/
structure JoinPlan.HasColumn (schema : Schema) (root : Entity) (plan : JoinPlan) (path : Path)
    (c : SelectColumn) : Prop where
  type : ∃ r f, schema.resolve root path = .ok r ∧ r.terminal = .field f ∧ c.type = some f.type
  column : plan.column schema root path = .ok (c.column, c.type)

variable {schema : Schema} {root : Entity} {plan plan' : JoinPlan} {path : Path} {c : SelectColumn}
variable {shape : Constructor} {list : SelectList}

/-- A path keeps its column while more is read. -/
theorem JoinPlan.HasColumn.stays (h : Reads schema root plan plan')
    (hcolumn : plan.HasColumn schema root path c) : plan'.HasColumn schema root path c :=
  ⟨hcolumn.type, h.column_stays hcolumn.column⟩

/-- The columns of a plan stand for their paths. -/
theorem JoinPlan.HasColumn.standsFor {s : Select} (h : s.plan.HasColumn schema s.root path c) :
    c.StandsFor schema s path :=
  ⟨h.type, fun _ _ _ hfollows => Select.value_eq_read hfollows h.column⟩

namespace SelectList

open Planning

/-! ### Choosing columns -/

/-- A path that is selected gets its column under the label. -/
theorem run_pathColumn_hasColumn {label : String}
    (h : (pathColumn schema root path label).run plan = .ok (c, plan')) :
    c.label = label ∧ plan'.HasColumn schema root path c := by
  unfold pathColumn at h
  obtain ⟨r, _, hresolve, h⟩ := run_bind_iff.1 h
  obtain ⟨hr, rfl⟩ := run_lift_iff.1 hresolve
  rw [lift_eq_ok_iff] at hr
  -- What is no field is refused.
  split at h
  · obtain ⟨_, _, hthrow, _⟩ := run_bind_iff.1 h
    exact absurd hthrow run_throw_ne
  · rename_i hfield
    simp only [run_bind_iff, run_get_iff, run_lift_iff, run_pure_iff] at h
    obtain ⟨_, mid, _, _, _, ⟨rfl, rfl⟩, ⟨column, type⟩, _, ⟨hcolumn, rfl⟩, rfl, rfl⟩ := h
    refine ⟨rfl, ?_, hcolumn⟩
    obtain ⟨r', hr', _, hterminal⟩ := column_eq_ok hcolumn
    obtain rfl := Except.ok.inj (hr.symm.trans hr')
    rcases hterminal with ⟨f, hfound, _, htype⟩ | ⟨a, hassociation, _⟩
    · exact ⟨r, f, hr, hfound, htype⟩
    · simp [Resolution.isField_iff, hassociation] at hfield

/-- Paths that are selected one by one get their columns in the same order. -/
theorem run_mapM_hasColumn {β : Type} (f : β → Path × String) {items : List β}
    {columns : List SelectColumn}
    (h : (items.mapM fun item => pathColumn schema root (f item).1 (f item).2).run plan =
      .ok (columns, plan')) :
    List.Forall₂ (fun item c => c.label = (f item).2 ∧ plan'.HasColumn schema root (f item).1 c)
      items columns :=
  (run_mapM_forall₂ (fun p item (c : SelectColumn) => c.label = (f item).2 ∧
      p.HasColumn schema root (f item).1 c)
    (fun hreads hc => ⟨hc.1, hc.2.stays hreads⟩)
    (fun hrun => ⟨(run_pathColumn hrun).1, run_pathColumn_hasColumn hrun⟩) h).2

/-- The columns of written selections stand for their paths, in order and under their labels. -/
theorem run_ofSelections_hasColumn {selections : List Selection}
    (h : (ofSelections schema root selections).run plan = .ok (list, plan')) :
    List.Forall₂ (fun sel c => c.label = sel.label ∧ plan'.HasColumn schema root sel.path c)
      selections list.columns := by
  unfold ofSelections at h
  simp only [run_bind_iff, run_pure_iff] at h
  obtain ⟨columns, _, hcolumns, rfl, rfl⟩ := h
  exact run_mapM_hasColumn (fun sel : Selection => (sel.path, sel.label)) hcolumns

/-- The fields that the parameters of a constructor name, as far as they do. -/
def namedFields (schema : Schema) (root : Entity) (shape : Constructor) : List (Path × String) :=
  shape.parameters.filterMap fun parameter =>
    (parameterPath? schema root parameter).map fun path => (path, parameter)

/-- A parameter is read from the path it names, if it names one. -/
theorem mem_namedFields {parameter : String} :
    (path, parameter) ∈ namedFields schema root shape ↔
      parameter ∈ shape.parameters ∧ parameterPath? schema root parameter = some path := by
  unfold namedFields
  simp only [List.mem_filterMap, Option.map_eq_some_iff, Prod.mk.injEq]
  constructor
  · rintro ⟨_, hparameter, _, hpath, rfl, rfl⟩
    exact ⟨hparameter, hpath⟩
  · rintro ⟨hparameter, hpath⟩
    exact ⟨parameter, hparameter, path, hpath, rfl, rfl⟩

/-- A constructor selects the fields that its parameters name, or one column of its own. -/
theorem run_ofConstructor_hasColumn
    (h : (ofConstructor schema root shape).run plan = .ok (list, plan')) :
    List.Forall₂ (fun named c => c.label = named.2 ∧ plan'.HasColumn schema root named.1 c)
        (namedFields schema root shape) list.columns ∨
      namedFields schema root shape = [] ∧ list.labels = [keyMarker ++ "id"] := by
  unfold ofConstructor at h
  obtain ⟨columns, _, hcolumns, h⟩ := run_bind_iff.1 h
  have hall := run_mapM_hasColumn id hcolumns
  -- If no parameter names anything, the identifier is read so that there is a column at all.
  split at h
  · rename_i hempty
    rw [List.isEmpty_iff] at hempty
    subst hempty
    simp only [run_bind_iff, run_lift_iff, run_pure_iff] at h
    obtain ⟨_, _, ⟨_, rfl⟩, rfl, rfl⟩ := h
    exact .inr ⟨List.forall₂_nil_right_iff.1 hall, rfl⟩
  · obtain ⟨rfl, rfl⟩ := run_pure_iff.1 h
    exact .inl hall

end SelectList

namespace Select

variable {q : Query} {s : Select}

/-! ### Columns of whole selects -/

/-- What the columns are chosen for still holds of the finished plan. -/
theorem exists_run_of_ofQuery (h : Select.ofQuery schema q = .ok s) :
    ∃ before middle, (SelectList.ofQuery schema q).run before = .ok (s.list, middle) ∧
      s.root = q.entity ∧ Reads schema s.root middle s.plan := by
  obtain ⟨before, middle, _, hlist, horder, hroot, _⟩ := ofQuery_eq_ok h
  exact ⟨before, middle, hlist, hroot, hroot ▸ (run_orderTerms horder).1⟩

/-- **An explicit list** has a column for each of its paths, in written order. -/
theorem forall₂_selections (h : Select.ofQuery schema q = .ok s)
    (hlist : SelectList.ofQuery schema q = SelectList.ofSelections schema q.entity q.selections) :
    List.Forall₂ (fun sel c => c.label = sel.label ∧ c.StandsFor schema s sel.path) q.selections
      s.list.columns := by
  obtain ⟨_, _, hrun, hroot, hreads⟩ := exists_run_of_ofQuery h
  rw [hlist, ← hroot] at hrun
  exact (SelectList.run_ofSelections_hasColumn hrun).imp fun _ _ hc =>
    ⟨hc.1, (hc.2.stays hreads).standsFor⟩

/-- The columns of an explicit list have the labels that are written in it. -/
theorem labels_selections (h : Select.ofQuery schema q = .ok s)
    (hlist : SelectList.ofQuery schema q = SelectList.ofSelections schema q.entity q.selections) :
    s.list.labels = q.selections.map (·.label) := by
  rw [SelectList.labels, ← List.forall₂_eq_eq_eq, List.forall₂_map_left_iff, List.forall₂_map_right_iff]
  exact (forall₂_selections h hlist).flip.imp fun _ _ hc => hc.1

section Constructors

variable (h : Select.ofQuery schema q = .ok s)
  (hlist : SelectList.ofQuery schema q = SelectList.ofConstructor schema q.entity shape)
include h hlist

/-- Each column that a constructor selects is that of a parameter, unless no parameter names anything. -/
theorem mem_columns_of_constructor (hc : c ∈ s.list.columns) :
    (∃ path, SelectList.parameterPath? schema s.root c.label = some path ∧
        c.StandsFor schema s path) ∨
      c.label = keyMarker ++ "id" ∧ ∀ parameter ∈ shape.parameters,
        SelectList.parameterPath? schema s.root parameter = none := by
  obtain ⟨_, _, hrun, hroot, hreads⟩ := exists_run_of_ofQuery h
  rw [hlist, ← hroot] at hrun
  -- The columns are those of the parameters, or the marker's alone.
  rcases SelectList.run_ofConstructor_hasColumn hrun with hall | ⟨hnone, hlabels⟩
  · obtain ⟨⟨path, parameter⟩, hnamed, hlabel, hcolumn⟩ := exists_left_of_forall₂ hall hc
    refine .inl ⟨path, ?_, (hcolumn.stays hreads).standsFor⟩
    rw [hlabel]
    exact (SelectList.mem_namedFields.1 hnamed).2
  · refine .inr ⟨?_, fun parameter hparameter => ?_⟩
    · have hmem : c.label ∈ s.list.labels := List.mem_map_of_mem hc
      rw [hlabels] at hmem
      exact List.mem_singleton.1 hmem
    · refine Option.eq_none_iff_forall_ne_some.2 fun path hpath => ?_
      have hnamed := SelectList.mem_namedFields.2 ⟨hparameter, hpath⟩
      rw [hnone] at hnamed
      cases hnamed

/-- Each parameter that names a field has a column. -/
theorem exists_column_of_parameter {parameter : String} (hparameter : parameter ∈ shape.parameters)
    (hpath : SelectList.parameterPath? schema s.root parameter = some path) :
    ∃ c ∈ s.list.columns, c.label = parameter ∧ c.StandsFor schema s path := by
  obtain ⟨_, _, hrun, hroot, hreads⟩ := exists_run_of_ofQuery h
  rw [hlist, ← hroot] at hrun
  have hnamed := SelectList.mem_namedFields.2 ⟨hparameter, hpath⟩
  rcases SelectList.run_ofConstructor_hasColumn hrun with hall | ⟨hnone, _⟩
  · obtain ⟨c, hc, hlabel, hcolumn⟩ := exists_right_of_forall₂ hall hnamed
    exact ⟨c, hc, hlabel, (hcolumn.stays hreads).standsFor⟩
  · rw [hnone] at hnamed
    cases hnamed

end Constructors

end Select

end EntityQuery
