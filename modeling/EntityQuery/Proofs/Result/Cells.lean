import EntityQuery.Proofs.Result.Mapped
import EntityQuery.Sql.SelectList
import Mathlib.Data.List.Nodup

namespace EntityQuery

/-!
# Cells of a selected row

The answer to a select has one value for each selected column.  Types are known by label, so the
values are recovered column by column as long as a label never stands for two different cells
(`SelectList.Apart`); then every column can also be found by its label
(`SelectList.coerceRow_cells`).
-/

/-! ### Typed values -/

namespace ScalarType

/-- A recovered value is not changed when it is recovered again. -/
theorem coerce_of_coerce {type : ScalarType} {raw v : Value} (h : type.coerce raw = .ok v) :
    type.coerce v = .ok v := by
  cases type <;> cases raw <;> simp only [coerce, Except.ok.injEq] at h <;>
    first
    | (subst h; rfl)
    | (split at h
       · cases h
         rfl
       · cases h)

/-- Nothing but null is recovered as null. -/
theorem coerce_eq_null_iff {type : ScalarType} {raw v : Value} (h : type.coerce raw = .ok v) :
    v = .null ↔ raw = .null := by
  cases type <;> cases raw <;> simp only [coerce, Except.ok.injEq] at h <;>
    first
    | (subst h; simp)
    | (split at h
       · cases h
         simp
       · cases h)

end ScalarType

/-- What the value of a selected column is read as: it is recovered where its type is known. -/
def SelectColumn.read (c : SelectColumn) (raw : Value) : Except ReadFault Value :=
  match c.type with
  | some type => type.coerce raw
  | none => .ok raw

/-! ### Lookups by label -/

/-- The first entry is found under its own key, and the others under theirs. -/
theorem lookup_cons_ite {β : Type} (pair : String × β) (pairs : List (String × β)) (key : String) :
    (pair :: pairs).lookup key = if key = pair.1 then some pair.2 else pairs.lookup key := by
  obtain ⟨k, b⟩ := pair
  by_cases h : key = k
  · simp [h]
  · simp [List.lookup_cons, h, beq_false_of_ne h]

/-- Answers are found under the labels of what they answer, where labels tell that apart. -/
theorem exists_lookup_zip {α β : Type} {R : α → β → Prop} {label : α → String} {as : List α}
    {bs : List β} (h : List.Forall₂ R as bs) {a : α}
    (hlabels : ∀ a' ∈ as, label a' = label a → a' = a) (ha : a ∈ as) :
    ∃ b, R a b ∧ ((as.map label).zip bs).lookup (label a) = some b := by
  induction h with
  | nil => cases ha
  | @cons x b as bs hxb _ ih =>
    rw [List.forall_mem_cons] at hlabels
    rw [List.map_cons, List.zip_cons_cons, lookup_cons_ite]
    by_cases hx : label x = label a
    · -- The first answer under the label is found, and it answers the same.
      obtain rfl := hlabels.1 hx
      exact ⟨b, hxb, by simp⟩
    · have hrest : a ∈ as := by
        rcases List.mem_cons.1 ha with rfl | ha
        · exact absurd rfl hx
        · exact ha
      obtain ⟨b', hR, hfound⟩ := ih hlabels.2 hrest
      exact ⟨b', hR, by rw [if_neg (Ne.symm hx)]; exact hfound⟩

namespace ColumnTypes

/-- Setting a label's type changes what is found under that label only. -/
theorem lookup_set (types : ColumnTypes) (label l : String) (type : ScalarType) :
    (types.set label type).lookup l = if l = label then some type else types.lookup l := by
  have hothers : (types.filter (·.1 != label)).lookup l =
      if l = label then none else types.lookup l := by
    induction types with
    | nil => simp
    | cons entry types ih =>
      rw [List.filter_cons, lookup_cons_ite]
      by_cases hentry : entry.1 = label
      · -- The entry is dropped, and it was the only reason to find anything here.
        rw [if_neg (by simp [hentry]), ih, hentry]
        by_cases hl : l = label <;> simp [hl]
      · rw [if_pos (by simp [hentry]), lookup_cons_ite, ih]
        by_cases hl : l = entry.1
        · simp [hl, hentry]
        · simp [hl]
  unfold set
  rw [List.lookup_append, hothers, lookup_cons_ite]
  by_cases hl : l = label <;> simp [hl]

/-- A later entry takes the place of an earlier one. -/
theorem lookup_ofList (entries : List (String × ScalarType)) (l : String) :
    (ofList entries).lookup l = entries.reverse.lookup l := by
  suffices h : ∀ types : ColumnTypes,
      (entries.foldl (fun types entry => types.set entry.1 entry.2) types).lookup l =
        (entries.reverse.lookup l).or (types.lookup l) by
    exact (h []).trans (by simp)
  induction entries with
  | nil => simp
  | cons entry entries ih =>
    intro types
    rw [List.foldl_cons, ih, lookup_set, List.reverse_cons, List.lookup_append, Option.or_assoc,
      lookup_cons_ite]
    by_cases hl : l = entry.1 <;> simp [hl]

end ColumnTypes

/-! ### Recovered rows -/

/-- The value of a column, recovered if a type is known for its label. -/
def ColumnTypes.read (types : ColumnTypes) (label : String) (raw : Value) : Except ReadFault Value :=
  match types.lookup label with
  | some type => type.coerce raw
  | none => .ok raw

namespace Mapping

variable {types : ColumnTypes} {row row' : Row}

/-- A row can be recovered exactly if each of its values can. -/
theorem exists_coerceRow_iff :
    (∃ row', coerceRow types row = .ok row') ↔
      ∀ cell ∈ row.pairs, ∃ v, types.read cell.1 cell.2 = .ok v := by
  unfold coerceRow
  -- Without types the row is taken as it is, which is no different from reading each cell untyped.
  split
  · rename_i hempty
    rw [List.isEmpty_iff] at hempty
    subst hempty
    exact ⟨fun _ cell _ => ⟨cell.2, rfl⟩, fun _ => ⟨row, rfl⟩⟩
  · constructor
    · rintro ⟨_, h⟩ cell hcell
      obtain ⟨vs, hvs, _⟩ := bind_eq_ok_iff.1 h
      obtain ⟨v, _, hv⟩ := exists_right_of_forall₂ (listMapM_eq_ok_iff.1 hvs) hcell
      exact ⟨v, hv⟩
    · intro h
      obtain ⟨vs, hvs⟩ := exists_forall₂ h
      exact ⟨⟨row.columns, vs⟩, bind_eq_ok_iff.2 ⟨vs, listMapM_eq_ok_iff.2 hvs, rfl⟩⟩

/-- A row with one value for each column keeps its columns, and each value is recovered. -/
theorem recovered_of_coerceRow (hlength : row.values.length = row.columns.length)
    (h : coerceRow types row = .ok row') :
    row'.columns = row.columns ∧
      List.Forall₂ (fun cell v => types.read cell.1 cell.2 = .ok v) row.pairs row'.values := by
  unfold coerceRow at h
  split at h
  · rename_i hempty
    rw [List.isEmpty_iff] at hempty
    subst hempty
    cases h
    have hvalues : row.pairs.map Prod.snd = row.values := List.map_snd_zip (by simp [hlength])
    refine ⟨rfl, ?_⟩
    conv => rhs; rw [← hvalues]
    rw [List.forall₂_map_right_iff, List.forall₂_same]
    exact fun _ _ => rfl
  -- With types each cell has been read by its own.
  · obtain ⟨vs, hvs, h⟩ := bind_eq_ok_iff.1 h
    cases h
    exact ⟨rfl, listMapM_eq_ok_iff.1 hvs⟩

end Mapping

/-! ### Selected rows -/

namespace SelectList

variable {list : SelectList} {values : List Value}

/-- The labels of the columns in order. -/
def labels (list : SelectList) : List String := list.columns.map (·.label)

/-- Each selected column with the value that came back for it. -/
def cells (list : SelectList) (values : List Value) : List (SelectColumn × Value) :=
  list.columns.zip values

/-- A label never stands for two different cells. -/
def Apart (list : SelectList) (values : List Value) : Prop :=
  ∀ cell ∈ list.cells values, ∀ cell' ∈ list.cells values,
    cell.1.label = cell'.1.label → cell = cell'

/-- There are as many labels as columns. -/
theorem length_labels (list : SelectList) : list.labels.length = list.columns.length :=
  List.length_map _

/-- The cells of a row are over the columns of the list. -/
theorem map_fst_cells (hlength : values.length = list.columns.length) :
    (list.cells values).map Prod.fst = list.columns := List.map_fst_zip (by omega)

/-- And they have the labels of the list. -/
theorem map_label_cells (hlength : values.length = list.columns.length) :
    (list.cells values).map (fun cell => cell.1.label) = list.labels := by
  rw [labels, ← map_fst_cells hlength, List.map_map]
  rfl

/-- Labels that are used once tell the cells apart. -/
theorem apart_of_nodup (hlabels : list.labels.Nodup)
    (hlength : values.length = list.columns.length) : list.Apart values := by
  rw [← map_label_cells hlength] at hlabels
  exact fun cell hcell cell' hcell' => List.inj_on_of_nodup_map hlabels hcell hcell'

/-- Where all columns of a label have one type, if they have any, it is the type that is known by it. -/
theorem lookup_types_of_agree {c : SelectColumn} (hc : c ∈ list.columns)
    (hagree : ∀ c' ∈ list.columns, c'.label = c.label → ∀ type ∈ c'.type, c.type = some type) :
    list.types.lookup c.label = c.type := by
  unfold types
  rw [ColumnTypes.lookup_ofList]
  generalize hentries : list.columns.filterMap _ = entries
  have hmem : ∀ {label type}, (label, type) ∈ entries ↔
      ∃ c' ∈ list.columns, c'.type = some type ∧ c'.label = label := by
    intro label type
    simp [← hentries]
  -- The last entry of a label is the one that is found, and all its entries agree.
  cases hfound : entries.reverse.lookup c.label with
  | some type =>
    obtain ⟨l₁, l₂, hl, _⟩ := List.lookup_eq_some_iff.1 hfound
    have hin : (c.label, type) ∈ entries := by
      rw [← List.mem_reverse, hl]
      simp
    obtain ⟨c', hc', htype, hlabel⟩ := hmem.1 hin
    exact (hagree c' hc' hlabel type htype).symm
  | none =>
    cases htype : c.type with
    | none => rfl
    | some type =>
      have hin := hmem.2 ⟨c, hc, htype, rfl⟩
      have hno := List.lookup_eq_none_iff.1 hfound _ (List.mem_reverse.2 hin)
      simp at hno

/-- The type that is known by a label is that of its column. -/
theorem lookup_types {c : SelectColumn} (hc : c ∈ list.columns)
    (hsame : ∀ c' ∈ list.columns, c'.label = c.label → c' = c) :
    list.types.lookup c.label = c.type :=
  lookup_types_of_agree hc fun c' hc' hlabel _ htype => hsame c' hc' hlabel ▸ htype

/-- A row's pairs are its cells by their labels. -/
theorem pairs_eq_map_cells (list : SelectList) (values : List Value) :
    Row.pairs ⟨list.labels, values⟩ = (list.cells values).map fun cell => (cell.1.label, cell.2) := by
  simp [Row.pairs, labels, cells, List.zip_map_left, Prod.map]

/-- A label that only one column has leads to the type of that column. -/
theorem read_of_label {c : SelectColumn} {raw : Value} (hc : c ∈ list.columns)
    (hsame : ∀ c' ∈ list.columns, c'.label = c.label → c' = c) :
    list.types.read c.label raw = c.read raw := by
  unfold ColumnTypes.read
  rw [lookup_types hc hsame]
  rfl

/-- A row in which each selected column is found by its label. -/
def Tells (list : SelectList) (values : List Value) (row : Row) : Prop :=
  ∀ cell ∈ list.cells values, ∃ v, cell.1.read cell.2 = .ok v ∧ row.get? cell.1.label = some v

/-- Each value is recovered on its own. -/
theorem exists_coerceRow (hapart : list.Apart values)
    (hlength : values.length = list.columns.length)
    (hreads : ∀ cell ∈ list.cells values, ∃ v, cell.1.read cell.2 = .ok v) :
    ∃ vs, Mapping.coerceRow list.types ⟨list.labels, values⟩ = .ok ⟨list.labels, vs⟩ ∧
      List.Forall₂ (fun cell v => cell.1.read cell.2 = .ok v) (list.cells values) vs := by
  -- The type that is known by the label of a cell is that of its column.
  have htypes : ∀ cell ∈ list.cells values,
      list.types.read cell.1.label cell.2 = cell.1.read cell.2 := by
    intro cell hcell
    refine read_of_label (List.of_mem_zip hcell).1 fun c' hc' hlabel => ?_
    rw [← map_fst_cells hlength] at hc'
    obtain ⟨cell', hcell', rfl⟩ := List.mem_map.1 hc'
    exact congrArg Prod.fst (hapart cell' hcell' cell hcell hlabel)
  obtain ⟨⟨columns, vs⟩, hrow⟩ : ∃ row, Mapping.coerceRow list.types ⟨list.labels, values⟩ = .ok row := by
    rw [Mapping.exists_coerceRow_iff, pairs_eq_map_cells, List.forall_mem_map]
    intro cell hcell
    rw [htypes cell hcell]
    exact hreads cell hcell
  obtain ⟨rfl, hvalues⟩ :=
    Mapping.recovered_of_coerceRow (hlength.trans list.length_labels.symm) hrow
  refine ⟨vs, hrow, ?_⟩
  rw [pairs_eq_map_cells, List.forall₂_map_left_iff] at hvalues
  refine ((List.forall₂_and_left _ _).2 ⟨htypes, hvalues⟩).imp ?_
  rintro cell v ⟨htype, hread⟩
  exact htype.symm.trans hread

/-- **Values are recovered column by column.**  Where labels tell the cells apart and each value can
    be recovered, the whole row is, and each column is found by its label. -/
theorem coerceRow_cells (hapart : list.Apart values) (hlength : values.length = list.columns.length)
    (hreads : ∀ cell ∈ list.cells values, ∃ v, cell.1.read cell.2 = .ok v) :
    ∃ row, Mapping.coerceRow list.types ⟨list.labels, values⟩ = .ok row ∧ list.Tells values row := by
  obtain ⟨vs, hrow, hvs⟩ := exists_coerceRow hapart hlength hreads
  refine ⟨_, hrow, fun cell hcell => ?_⟩
  rw [← map_label_cells hlength]
  exact exists_lookup_zip hvs (fun cell' hcell' => hapart cell' hcell' cell hcell) hcell

end SelectList

end EntityQuery
