import EntityQuery.Proofs.Result.Cells

namespace EntityQuery

/-!
# Constructors and columns

A constructor finds its columns by the names of its parameters.  `Mapping.exists_mapRows_iff` says when
that works: each parameter has exactly one column, whether there are rows or not, and each value can be
recovered.  Then the arguments are the recovered values of these columns in the order of the parameters
(`Mapping.receives_of_mapRows`).  For the answer to a select they are cells of its list
(`SelectList.fills_of_receives`), and where the parameters are the labels of the list, they are all its
cells one after the other (`SelectList.Fills.forall₂_cells`).
-/

/-- All values of some rows can be recovered. -/
def RowSet.Recovers (rows : RowSet) (types : ColumnTypes) : Prop :=
  ∀ row ∈ rows.toRows, ∀ cell ∈ row.pairs, ∃ v, types.read cell.1 cell.2 = .ok v

/-- Each parameter is the name of exactly one column. -/
def Constructor.Takes (shape : Constructor) (columns : List String) : Prop :=
  ∀ parameter ∈ shape.parameters, columns.count parameter = 1

instance (shape : Constructor) (columns : List String) : Decidable (shape.Takes columns) :=
  inferInstanceAs (Decidable (∀ parameter ∈ shape.parameters, columns.count parameter = 1))

/-- Arguments in the order of the parameters, each with the recovered value of the column of its
    name. -/
def Constructor.Receives (shape : Constructor) (types : ColumnTypes) (row : Row)
    (arguments : List (String × Value)) : Prop :=
  List.Forall₂ (fun parameter argument => argument.1 = parameter ∧
    ∃ raw, (parameter, raw) ∈ row.pairs ∧ types.read parameter raw = .ok argument.2)
    shape.parameters arguments

/-! ### Columns that are named once -/

section Columns

variable {columns : List String} {values : List Value} {name : String}

/-- A row with one value for each column has its columns as the labels of its cells. -/
theorem Row.map_fst_pairs (h : values.length = columns.length) :
    (Row.pairs ⟨columns, values⟩).map Prod.fst = columns := List.map_fst_zip (by simp [h])

/-- A column that is there has a value. -/
theorem Row.exists_pair (h : values.length = columns.length) (hname : name ∈ columns) :
    ∃ raw, (name, raw) ∈ Row.pairs ⟨columns, values⟩ := by
  rw [← Row.map_fst_pairs h] at hname
  obtain ⟨⟨_, raw⟩, hpair, rfl⟩ := List.mem_map.1 hname
  exact ⟨raw, hpair⟩

/-- Of some items there is only one with a label that is used once. -/
theorem eq_of_count_map_eq_one {α : Type} {label : α → String} {items : List α}
    (h : (items.map label).count name = 1) {a b : α} (ha : a ∈ items) (hb : b ∈ items)
    (hlabelA : label a = name) (hlabelB : label b = name) : a = b := by
  induction items with
  | nil => cases ha
  | cons item items ih =>
    rw [List.map_cons, List.count_cons] at h
    -- Once the name has been counted, no later item has it.
    have hnone : label item = name → ∀ c ∈ items, label c ≠ name := by
      intro hitem c hc hlabel
      have hpos : 0 < (items.map label).count name :=
        List.count_pos_iff.2 (List.mem_map.2 ⟨c, hc, hlabel⟩)
      simp only [hitem, beq_self_eq_true, if_true] at h
      omega
    rcases List.mem_cons.1 ha with rfl | haRest <;> rcases List.mem_cons.1 hb with rfl | hbRest
    · rfl
    · exact absurd hlabelB (hnone hlabelA b hbRest)
    · exact absurd hlabelA (hnone hlabelB a haRest)
    · refine ih ?_ haRest hbRest
      have hpos : 0 < (items.map label).count name :=
        List.count_pos_iff.2 (List.mem_map.2 ⟨a, haRest, hlabelA⟩)
      split at h <;> omega

end Columns

namespace Mapping

variable {schema : Schema} {plan : MappingPlan} {shape : Constructor} {types : ColumnTypes}
variable {row row' : Row}

/-! ### Recovered rows -/

/-- A column that is named once is found in the recovered row, with its recovered value. -/
theorem exists_get?_of_coerceRow {name : String} {raw : Value}
    (hlength : row.values.length = row.columns.length) (hcount : row.columns.count name = 1)
    (hpair : (name, raw) ∈ row.pairs) (h : coerceRow types row = .ok row') :
    ∃ v, types.read name raw = .ok v ∧ row'.get? name = some v := by
  obtain ⟨hcolumns, hvalues⟩ := recovered_of_coerceRow hlength h
  rw [← Row.map_fst_pairs hlength] at hcount
  -- The only pair of this name answers the lookup in the recovered row.
  obtain ⟨v, hv, hlookup⟩ := exists_lookup_zip hvalues
    (fun cell hcell hlabel => eq_of_count_map_eq_one hcount hcell hpair hlabel rfl) hpair
  refine ⟨v, hv, ?_⟩
  show (row'.columns.zip row'.values).lookup name = some v
  rw [hcolumns, ← Row.map_fst_pairs hlength]
  exact hlookup

/-! ### Checked parameters -/

/-- A parameter is accepted exactly if one column has its name. -/
theorem checkParameter_eq_ok_iff {columns : List String} {parameter : String} :
    checkParameter shape columns parameter = .ok () ↔ columns.count parameter = 1 := by
  unfold checkParameter
  split <;> simp_all

/-- So a constructor is accepted exactly if each of its parameters is. -/
theorem checkColumns_eq_ok_iff {columns : List String} (htarget : plan.target = .constructor shape) :
    checkColumns plan columns = .ok () ↔ shape.Takes columns := by
  unfold checkColumns
  rw [htarget, forM_eq_ok_iff]
  exact forall₂_congr fun _ _ => checkParameter_eq_ok_iff

/-! ### Whole mappings -/

/-- A row becomes arguments once its values have been coerced. -/
theorem readRow_constructor (htarget : plan.target = .constructor shape) :
    readRow schema plan row = (coerceRow plan.types row).map fun row' =>
      .arguments (constructorArguments shape row') := by
  unfold readRow
  cases coerceRow plan.types row with
  | error fault => rfl
  | ok row' =>
    show mapRow schema plan row' = _
    unfold mapRow
    rw [htarget]
    rfl

/-- **When a constructor can be called**: each parameter has exactly one column, whatever the rows are,
    and each value can be recovered. -/
theorem exists_mapRows_iff {rows : RowSet} (htarget : plan.target = .constructor shape) :
    (∃ results, mapRows schema plan rows = .ok results) ↔
      shape.Takes rows.columns ∧ rows.Recovers plan.types := by
  -- Only coercion can fail for a row; picking the arguments cannot.
  have hread : ∀ row, (∃ result, readRow schema plan row = .ok result) ↔
      ∀ cell ∈ row.pairs, ∃ v, plan.types.read cell.1 cell.2 = .ok v := by
    intro row
    rw [← exists_coerceRow_iff, readRow_constructor htarget]
    cases coerceRow plan.types row <;> simp [Except.map]
  simp only [mapRows_eq_ok_iff, checkColumns_eq_ok_iff htarget]
  constructor
  · rintro ⟨results, htakes, hrows⟩
    refine ⟨htakes, fun row hrow => (hread row).1 ?_⟩
    obtain ⟨result, _, hresult⟩ := exists_right_of_forall₂ hrows hrow
    exact ⟨result, hresult⟩
  · rintro ⟨htakes, hrecovers⟩
    obtain ⟨results, hresults⟩ := exists_forall₂ fun row hrow => (hread row).2 (hrecovers row hrow)
    exact ⟨results, htakes, hresults⟩

/-- What a constructor is given of a recovered row. -/
theorem receives_constructorArguments (htakes : shape.Takes row.columns)
    (hlength : row.values.length = row.columns.length) (h : coerceRow types row = .ok row') :
    shape.Receives types row (constructorArguments shape row').values := by
  show List.Forall₂ _ shape.parameters (shape.parameters.map _)
  rw [List.forall₂_map_right_iff, List.forall₂_same]
  intro parameter hparameter
  have hcount := htakes parameter hparameter
  have hmem : parameter ∈ row.columns := List.count_pos_iff.1 (by omega)
  obtain ⟨raw, hpair⟩ := Row.exists_pair hlength hmem
  obtain ⟨v, hv, hget⟩ := exists_get?_of_coerceRow hlength hcount hpair h
  refine ⟨rfl, raw, hpair, ?_⟩
  show types.read parameter raw = .ok ((row'.get? parameter).getD .null)
  rw [hget]
  exact hv

/-- **What a constructor is given**: of each row the recovered values of the columns that its
    parameters name. -/
theorem receives_of_mapRows {rows : RowSet} {results : List Projected}
    (htarget : plan.target = .constructor shape)
    (hlength : ∀ values ∈ rows.rows, values.length = rows.columns.length)
    (h : mapRows schema plan rows = .ok results) :
    List.Forall₂ (fun row result => ∃ arguments, result = .arguments ⟨shape.type, arguments⟩ ∧
      shape.Receives plan.types row arguments) rows.toRows results := by
  obtain ⟨hcheck, hrows⟩ := mapRows_eq_ok_iff.1 h
  have htakes := (checkColumns_eq_ok_iff htarget).1 hcheck
  refine ((List.forall₂_and_left _ _).2 ⟨fun row hrow => hrow, hrows⟩).imp fun row result h => ?_
  obtain ⟨hrow, hread⟩ := h
  obtain ⟨values, hvalues, rfl⟩ := List.mem_map.1 hrow
  rw [readRow_constructor htarget] at hread
  -- The arguments are picked from the coerced row, whose values are those of the columns.
  cases hrow : coerceRow plan.types ⟨rows.columns, values⟩ with
  | error fault => simp [hrow, Except.map] at hread
  | ok row' =>
    simp only [hrow, Except.map, Except.ok.injEq] at hread
    subst hread
    exact ⟨_, rfl, receives_constructorArguments htakes (hlength values hvalues) hrow⟩

end Mapping

/-! ### Cells of a select -/

namespace SelectList

variable {list : SelectList} {values : List Value} {shape : Constructor}
variable {arguments : List (String × Value)}

/-- Rows that a store may give for a select: its columns, and a value for each of them. -/
structure Fits (list : SelectList) (rows : RowSet) : Prop where
  columns : rows.columns = list.labels
  rectangular : ∀ values ∈ rows.rows, values.length = list.columns.length

/-- Arguments in the order of the parameters, each read from a cell with its name as the label. -/
def Fills (list : SelectList) (values : List Value) (shape : Constructor)
    (arguments : List (String × Value)) : Prop :=
  List.Forall₂ (fun parameter argument => argument.1 = parameter ∧
    ∃ cell ∈ list.cells values, cell.1.label = parameter ∧ cell.1.read cell.2 = .ok argument.2)
    shape.parameters arguments

/-- A label that is used once has the type of its column. -/
theorem read_of_count {cell : SelectColumn × Value} (hcell : cell ∈ list.cells values)
    (hcount : list.labels.count cell.1.label = 1) :
    list.types.read cell.1.label cell.2 = cell.1.read cell.2 :=
  have hcolumn := (List.of_mem_zip hcell).1
  read_of_label hcolumn fun _ hc hlabel => eq_of_count_map_eq_one hcount hc hcolumn hlabel rfl

/-- What a constructor is given of the answer to a select are cells of its list. -/
theorem fills_of_receives (htakes : shape.Takes list.labels)
    (h : shape.Receives list.types ⟨list.labels, values⟩ arguments) :
    list.Fills values shape arguments := by
  refine ((List.forall₂_and_left _ _).2 ⟨htakes, h⟩).imp fun parameter argument h => ?_
  obtain ⟨hcount, hname, raw, hpair, hread⟩ := h
  refine ⟨hname, ?_⟩
  rw [pairs_eq_map_cells] at hpair
  obtain ⟨cell, hcell, heq⟩ := List.mem_map.1 hpair
  obtain ⟨rfl, rfl⟩ := Prod.mk.inj heq
  exact ⟨cell, hcell, rfl, (read_of_count hcell hcount).symm.trans hread⟩

/-- Arguments have the names of the parameters. -/
theorem Fills.map_fst (h : list.Fills values shape arguments) :
    arguments.map Prod.fst = shape.parameters := by
  unfold Fills at h
  generalize shape.parameters = parameters at h
  induction h with
  | nil => rfl
  | cons hfirst _ ih => rw [List.map_cons, hfirst.1, ih]

/-- **Parameters that are the labels** take the cells one after the other. -/
theorem Fills.forall₂_cells (hlength : values.length = list.columns.length)
    (hlabels : shape.parameters = list.labels) (htakes : shape.Takes list.labels)
    (h : list.Fills values shape arguments) :
    List.Forall₂ (fun cell argument => cell.1.read cell.2 = .ok argument.2) (list.cells values)
      arguments := by
  unfold Fills at h
  rw [hlabels, ← map_label_cells hlength, List.forall₂_map_left_iff] at h
  refine ((List.forall₂_and_left _ _).2 ⟨fun cell hcell => hcell, h⟩).imp fun cell argument h => ?_
  obtain ⟨hcell, _, cell', hcell', hlabel, hread⟩ := h
  -- No other cell has the same label.
  have hmem : cell.1.label ∈ shape.parameters := by
    rw [hlabels, ← map_label_cells hlength]
    exact List.mem_map_of_mem hcell
  have hcount := htakes _ hmem
  rw [← map_label_cells hlength] at hcount
  obtain rfl := eq_of_count_map_eq_one hcount hcell' hcell hlabel rfl
  exact hread

end SelectList

end EntityQuery
