import EntityQuery.Proofs.Plan.Fetching
import EntityQuery.Proofs.Rows.Honoured
import Mathlib.Data.List.Dedup

namespace EntityQuery

open JoinPlan

/-!
# Distinct rows

What a distinct page lists and what it counts.  The content statement returns each combination of
selected values once, the counting statement counts the different identifiers of the root.

* `Select.counted_eq`: what is counted are the rows of the root that are asked for, whatever is
  selected of them;
* `Select.listed_le_counted`, `Select.listed_eq_counted_iff`: no more rows are listed, and as many
  exactly if no two of those rows agree in everything that is selected;
* `Select.nodup_shown`: where the identifier is selected, no two rows agree.

`distinct_page_counts` puts this together for whole queries, and `distinct_page_lists_fewer` is a page
that lists fewer rows than it counts.
-/

variable {schema : Schema} {plan : JoinPlan} {q : Query} {s : Select}
variable (M : Meaning) (db : Database schema)

namespace Select

/-- What a row of the content statement shows, in the form in which values are told apart: numbers by
    their value, and nothing is the same as nothing. -/
def shown (s : Select) (row : JoinedRow) : List Stored :=
  s.list.columns.map fun c => (row.value c.column).key

/-- The number of rows that the content statement returns without a window: of all rows, or of the
    different ones. -/
def listed (s : Select) : Nat :=
  let rows := s.rows M db s.plan
  match s.distinctKey with
  | none => rows.length
  | some _ => (rows.map s.shown).dedup.length

variable {M db} {key : String}

/-! ### Identifiers of the roots -/

/-- Every selected row comes from a row of the root. -/
theorem PlannedFor.exists_root (h : PlannedFor schema q s) (hplan : Decides schema q s plan)
    {row : JoinedRow} (hrow : row ∈ s.rows M db plan) :
    ∃ start ∈ db.rows q.entity.table, row 0 = some start := by
  rw [rows_eq_flatMap, h.root, List.mem_flatMap] at hrow
  obtain ⟨start, hstart, hrow⟩ := hrow
  by_cases hkeeps : Keeps M db q s start
  · obtain ⟨only, hrows, hfollows⟩ := h.rowsFrom_of_keeps hplan hkeeps
    rw [hrows, List.mem_singleton] at hrow
    exact ⟨start, hstart, hrow ▸ hfollows.atRoot⟩
  · rw [h.rowsFrom_of_not_keeps hplan hkeeps] at hrow
    cases hrow

variable (M db)

/-- A column of the root has its values in the roots. -/
theorem PlannedFor.map_value_root (h : PlannedFor schema q s) (hplan : Decides schema q s plan)
    (name : String) :
    (s.rows M db plan).map (fun row => row.value ⟨0, name⟩) =
      (s.roots M db plan).map fun start => start name := by
  rw [roots, List.map_filterMap, ← List.filterMap_eq_map]
  refine List.filterMap_congr fun row hrow => ?_
  obtain ⟨start, _, hstart⟩ := h.exists_root hplan hrow
  simp only [JoinedRow.value, hstart, Function.comp_apply, Option.map_some]

/-- The roots are told apart by their identifiers, none of which is missing. -/
theorem PlannedFor.nodup_ids (h : PlannedFor schema q s) (hplan : Decides schema q s plan)
    (hentity : q.entity ∈ schema.entities) (hkey : q.entity.idColumn = .ok key) :
    (∀ start ∈ s.roots M db plan, start key ≠ .null) ∧
      ((s.roots M db plan).map fun start => (start key).key).Nodup := by
  classical
  have hids : ∀ start ∈ s.roots M db plan, start key ≠ .null := fun start hstart =>
    db.ids_ne_null q.entity hentity key hkey start ((h.mem_roots_iff hplan).1 hstart).1
  have hunique : (s.roots M db plan).Pairwise fun a b => ¬ (a key).Equals (b key) := by
    rw [h.roots_eq_filter hplan]
    exact (db.ids_unique q.entity hentity key hkey).sublist List.filter_sublist
  refine ⟨hids, List.pairwise_map.2 (hunique.imp_of_mem fun ha hb hdiffers hsame => ?_)⟩
  exact hdiffers ⟨hids _ ha, hids _ hb, hsame⟩

/-! ### Counting -/

/-- The joins that are left out of the counting statement drop no rows. -/
theorem PlannedFor.roots_filtering (h : PlannedFor schema q s) :
    s.roots M db s.plan.filtering = s.roots M db s.plan := by
  classical
  rw [h.roots_eq_filter h.decides_filtering, h.roots_eq_filter h.decides]

/-- **What is counted are the roots**: as many different identifiers are found as rows of the root
    are asked for. -/
theorem PlannedFor.counted_eq (h : PlannedFor schema q s) (hentity : q.entity ∈ schema.entities)
    (hdistinct : q.distinct = true) : s.counted M db = (s.roots M db s.plan).length := by
  classical
  obtain ⟨key, hkey, hdistinctKey⟩ := h.distinct hdistinct
  obtain ⟨hids, hnodup⟩ := h.nodup_ids M db h.decides_filtering hentity hkey
  -- The counted values are identifiers, of which none is null and no two are the same.
  have hvalues : ((s.rows M db s.plan.filtering).map fun row => row.value ⟨0, key⟩).filter
      (fun value => value ≠ .null) = (s.roots M db s.plan.filtering).map fun start => start key := by
    rw [h.map_value_root M db h.decides_filtering, List.filter_eq_self]
    intro value hvalue
    obtain ⟨start, hstart, rfl⟩ := List.mem_map.1 hvalue
    exact decide_eq_true (hids start hstart)
  unfold counted
  rw [hdistinctKey]
  dsimp only
  rw [hvalues, List.map_map, Function.comp_def, hnodup.dedup, List.length_map, h.roots_filtering]

/-! ### Listing -/

/-- As many rows are shown as are counted. -/
theorem PlannedFor.length_shown (h : PlannedFor schema q s) (hentity : q.entity ∈ schema.entities)
    (hdistinct : q.distinct = true) :
    ((s.rows M db s.plan).map s.shown).length = s.counted M db := by
  rw [List.length_map, ← h.length_roots h.decides, h.counted_eq M db hentity hdistinct]

/-- A distinct list shows each row once. -/
theorem PlannedFor.listed_eq (h : PlannedFor schema q s) (hdistinct : q.distinct = true) :
    s.listed M db = ((s.rows M db s.plan).map s.shown).dedup.length := by
  obtain ⟨key, _, hdistinctKey⟩ := h.distinct hdistinct
  unfold listed
  rw [hdistinctKey]

/-- **No more rows are listed than counted.** -/
theorem PlannedFor.listed_le_counted (h : PlannedFor schema q s)
    (hentity : q.entity ∈ schema.entities) (hdistinct : q.distinct = true) :
    s.listed M db ≤ s.counted M db := by
  rw [h.listed_eq M db hdistinct, ← h.length_shown M db hentity hdistinct]
  exact (List.dedup_sublist _).length_le

/-- **As many rows are listed as counted** exactly if no two of them show the same. -/
theorem PlannedFor.listed_eq_counted_iff (h : PlannedFor schema q s)
    (hentity : q.entity ∈ schema.entities) (hdistinct : q.distinct = true) :
    s.listed M db = s.counted M db ↔ ((s.rows M db s.plan).map s.shown).Nodup := by
  rw [h.listed_eq M db hdistinct, ← h.length_shown M db hentity hdistinct, ← List.dedup_eq_self]
  constructor
  · exact (List.dedup_sublist _).eq_of_length
  · exact congrArg List.length

/-- Rows that show their identifiers show different ones. -/
theorem PlannedFor.nodup_shown (h : PlannedFor schema q s) (hentity : q.entity ∈ schema.entities)
    (hkey : q.entity.idColumn = .ok key) (hselected : ⟨0, key⟩ ∈ s.list.columns.map (·.column)) :
    ((s.rows M db s.plan).map s.shown).Nodup := by
  obtain ⟨c, hc, hcolumn⟩ := List.mem_map.1 hselected
  obtain ⟨_, hnodup⟩ := h.nodup_ids M db h.decides hentity hkey
  have hids : ((s.rows M db s.plan).map fun row => (row.value ⟨0, key⟩).key).Nodup := by
    have hvalues := congrArg (List.map Stored.key) (h.map_value_root M db h.decides key)
    rw [List.map_map, List.map_map] at hvalues
    exact hvalues ▸ hnodup
  refine List.pairwise_map.2 ((List.pairwise_map.1 hids).imp fun hdiffers hsame => hdiffers ?_)
  -- What is shown holds the value of the identifier's column.
  rw [← hcolumn]
  exact List.map_inj_left.1 hsame c hc

/-- A query for records selects the identifier. -/
theorem mem_columns_of_ofEntity {fetchAll : Bool}
    (hlist : SelectList.ofQuery schema q = SelectList.ofEntity schema q.entity fetchAll)
    (h : Select.ofQuery schema q = .ok s) (hkey : q.entity.idColumn = .ok key) :
    ⟨0, key⟩ ∈ s.list.columns.map (·.column) := by
  obtain ⟨_, _, _, hentity, _⟩ := ofQuery_eq_ok h
  rw [hlist] at hentity
  unfold SelectList.ofEntity at hentity
  simp only [Planning.run_bind_iff, Planning.run_pure_iff] at hentity
  obtain ⟨lists, _, _, hmade, _⟩ := hentity
  unfold Entity.idColumn at hkey
  -- The identifier is a field, so its column is among the fields' columns.
  split at hkey
  · rename_i f hid
    cases hkey
    obtain ⟨hf, _⟩ := Entity.mem_of_fieldNamed? hid
    rw [← hmade, List.map_append]
    refine List.mem_append_left _ (List.mem_map.2 ⟨_, List.mem_map_of_mem hf, rfl⟩)
  · cases hkey

end Select

/-- The target needs whole records. -/
def Target.readsRecords : Target → Bool
  | .entity | .opened _ => true
  | _ => false

/-- **What a distinct page counts** are the different rows of the root that it asks for.  It never
    lists more of them than it counts, and it lists as many exactly if no two of them agree in all
    selected columns.  That is so whenever the identifier is selected, and in particular for whole
    records. -/
theorem distinct_page_counts {c : Compiled} (h : q.compile schema = .ok c)
    (hentity : q.entity ∈ schema.entities) (hdistinct : q.distinct = true) (hshape : q.shape = .page) :
    ∃ s key, Select.ofQuery schema q = .ok s ∧ c.content = s.content ∧ c.count = some s.count ∧
      q.entity.idColumn = .ok key ∧
      s.counted M db = (s.roots M db s.plan).length ∧
      s.listed M db ≤ s.counted M db ∧
      (s.listed M db = s.counted M db ↔ ((s.rows M db s.plan).map s.shown).Nodup) ∧
      (⟨0, key⟩ ∈ s.list.columns.map (·.column) → s.listed M db = s.counted M db) ∧
      (q.target.readsRecords = true → s.listed M db = s.counted M db) := by
  obtain ⟨s, hs, h⟩ := bind_eq_ok_iff.1 h
  cases h
  have hplanned := Select.plannedFor_of_ofQuery hs
  obtain ⟨key, hkey, _⟩ := hplanned.distinct hdistinct
  have hiff := hplanned.listed_eq_counted_iff M db hentity hdistinct
  have hselected : ⟨0, key⟩ ∈ s.list.columns.map (·.column) → s.listed M db = s.counted M db :=
    fun hmem => hiff.2 (hplanned.nodup_shown M db hentity hkey hmem)
  refine ⟨s, key, hs, ?_, ?_, hkey, hplanned.counted_eq M db hentity hdistinct,
    hplanned.listed_le_counted M db hentity hdistinct, hiff, hselected, fun hrecords => hselected ?_⟩
  · simp only [Select.compiled, hshape]
  · simp only [Select.compiled, hshape, if_true]
  -- Records are read with all their fields, the identifier included.
  · obtain ⟨fetchAll, hlist⟩ : ∃ fetchAll,
        SelectList.ofQuery schema q = SelectList.ofEntity schema q.entity fetchAll := by
      unfold SelectList.ofQuery
      cases htarget : q.target with
      | entity => exact ⟨false, rfl⟩
      | opened => exact ⟨true, rfl⟩
      | dynamic | scalar | closed | constructor => simp [htarget, Target.readsRecords] at hrecords
    exact Select.mem_columns_of_ofEntity hlist hs hkey

namespace Sample

/-- A page of members, each different result once. -/
def distinctMembers (target : Target) : Query where
  entity := member
  shape := .page
  target := target
  distinct := true

/-- The teams that the teams of members are parts of. -/
def distinctParents : Query := distinctMembers (.scalar ⟨["team", "parent", "id"]⟩)

end Sample

/-- Members are told apart by their identifiers, so as many are listed as counted. -/
theorem distinct_page_counts_members :
    ∃ c, (Sample.distinctMembers .entity).compile Sample.league = .ok c ∧
      ∃ s : Select, c.content = s.content ∧ c.count = some s.count ∧
        s.listed Sample.meaning Sample.database = s.counted Sample.meaning Sample.database := by
  have hcompiles : ∃ c, (Sample.distinctMembers .entity).compile Sample.league = .ok c := ⟨_, by rfl⟩
  obtain ⟨c, hc⟩ := hcompiles
  obtain ⟨s, _, _, hcontent, hcount, _, _, _, _, _, hrecords⟩ :=
    distinct_page_counts Sample.meaning Sample.database hc (by decide) rfl rfl
  exact ⟨c, hc, s, hcontent, hcount, hrecords rfl⟩

/-- **A page that lists fewer rows than it counts.**  The team of one member is a part of the first
    team, and the teams of the two others are parts of none: two different results of three members. -/
theorem distinct_page_lists_fewer :
    ∃ c, Sample.distinctParents.compile Sample.league = .ok c ∧
      ∃ s : Select, c.content = s.content ∧ c.count = some s.count ∧
        s.listed Sample.meaning Sample.database = 2 ∧
        s.counted Sample.meaning Sample.database = 3 := by
  have hselect : (Select.ofQuery Sample.league Sample.distinctParents).toOption.any (fun s =>
      s.listed Sample.meaning Sample.database == 2 &&
        s.counted Sample.meaning Sample.database == 3) = true := by
    decide +kernel
  obtain ⟨s, hs, hnumbers⟩ := any_toOption_iff.1 hselect
  rw [Bool.and_eq_true, beq_iff_eq, beq_iff_eq] at hnumbers
  exact ⟨_, bind_eq_ok_iff.2 ⟨s, hs, rfl⟩, s, rfl, rfl, hnumbers⟩

end EntityQuery
