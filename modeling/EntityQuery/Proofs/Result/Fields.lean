import EntityQuery.Proofs.Result.Loaded
import EntityQuery.Proofs.Result.TableRows
import EntityQuery.Proofs.Value.Recovered

namespace EntityQuery

open JoinPlan

/-!
# Fields of records

A record looks up each of its fields by name, and the columns of the root stand before all others, so
what it has under a name is the value of the first field of this name (`Record.MappedBy.fields`).  This
takes no more than that columns of one label are read as one type (`SelectList.OneType`).  A row with
values of the declared types has such a record (`Entity.Types.exists_mappedBy`).
-/

variable {schema : Schema} {root e : Entity} {q : Query} {s : Select} {plan plan' : JoinPlan}
variable {list : SelectList} {joined : JoinedRow} {values : List Value} {row : Row} {start : TableRow}

/-- Columns that are read under one label are read as one type. -/
def SelectList.OneType (list : SelectList) : Prop :=
  ∀ c ∈ list.columns, ∀ c' ∈ list.columns, c.label = c'.label →
    ∀ type ∈ c.type, ∀ type' ∈ c'.type, type = type'

/-- Fields of one name have one type. -/
def Entity.OneType (e : Entity) : Prop :=
  ∀ f ∈ e.fields, ∀ g ∈ e.fields, f.name = g.name → f.type = g.type

instance (list : SelectList) : Decidable list.OneType :=
  inferInstanceAs (Decidable (∀ c ∈ list.columns, ∀ c' ∈ list.columns, c.label = c'.label →
    ∀ type ∈ c.type, ∀ type' ∈ c'.type, type = type'))

instance (e : Entity) : Decidable e.OneType :=
  inferInstanceAs (Decidable (∀ f ∈ e.fields, ∀ g ∈ e.fields, f.name = g.name → f.type = g.type))

/-- A record that a query for records maps from an answer whose root is the given row. -/
structure Record.MappedBy (schema : Schema) (q : Query) (s : Select) (start : TableRow) (r : Record) :
    Prop where
  records : q.target = .entity
  selects : Select.ofQuery schema q = .ok s
  reads : ∃ joined values, joined 0 = some start ∧ s.list.answer joined = .ok values ∧
    Mapping.readRow schema (s.compiled q).plan ⟨s.list.labels, values⟩ = .ok (.record r)

/-- A row with null or a value of the declared type, as it is bound, in the column of each field.  Keys are
    identifiers of other rows, and so they are integers. -/
structure Entity.Types (e : Entity) (start : TableRow) : Prop where
  fields : ∀ f ∈ e.fields, ∃ v, f.type.Has v ∧ Connection.bind v = .ok (start f.column)
  keys : ∀ a ∈ e.associations, ∀ column ∈ a.joinColumn?,
    ∃ v, ScalarType.integer.Has v ∧ Connection.bind v = .ok (start column)

/-- A field is found under its name, or another one of that name is. -/
theorem Entity.exists_fieldNamed? {f : Field} (hf : f ∈ e.fields) : ∃ g, e.fieldNamed? f.name = some g :=
  Option.isSome_iff_exists.1 (List.find?_isSome.2 ⟨f, hf, beq_self_eq_true _⟩)

/-! ### Lookups by label -/

/-- Related lists stay related through what is paired with them. -/
theorem forall₂_zip {α β γ : Type} {P : α → β → Prop} {Q : α × β → γ → Prop} {as : List α}
    {bs : List β} {cs : List γ} (h : List.Forall₂ P as bs) (h' : List.Forall₂ Q (as.zip bs) cs) :
    List.Forall₂ (fun a c => ∃ b, P a b ∧ Q (a, b) c) as cs := by
  induction h generalizing cs with
  | nil =>
    cases h'
    exact .nil
  | cons hab _ ih =>
    rw [List.zip_cons_cons] at h'
    cases h' with
    | cons hc hrest => exact .cons ⟨_, hab, hc⟩ (ih hrest)

/-- Related lists stay so under labels. -/
theorem forall₂_labelled {α β : Type} {R : α → β → Prop} {label : α → String} {as : List α}
    {bs : List β} (h : List.Forall₂ R as bs) :
    List.Forall₂ (fun a entry => entry.1 = label a ∧ R a entry.2) as ((as.map label).zip bs) := by
  induction h with
  | nil => exact .nil
  | cons hab _ ih => exact .cons ⟨rfl, hab⟩ ih

namespace SelectList

/-- **The first column of a label is what is found under it.** -/
theorem exists_get?_of_find? (answers : list.answer joined = .ok values)
    (hrow : Mapping.coerceRow list.types ⟨list.labels, values⟩ = .ok row) {label : String}
    {c : SelectColumn} (hc : list.columns.find? (·.label == label) = some c) :
    ∃ raw v, Value.ofStored (joined.value c.column) = .ok raw ∧ list.types.read label raw = .ok v ∧
      row.get? label = some v := by
  have hraw := listMapM_eq_ok_iff.1 answers
  have hlength : values.length = list.labels.length := hraw.length_eq.symm.trans list.length_labels.symm
  obtain ⟨hcolumns, hread⟩ := Mapping.recovered_of_coerceRow hlength hrow
  rw [pairs_eq_map_cells, List.forall₂_map_left_iff] at hread
  obtain ⟨entry, ⟨hentry, raw, hstored, hvalue⟩, hfound⟩ :=
    Mapping.exists_lookup_of_find? SelectColumn.label And.left (forall₂_labelled (forall₂_zip hraw hread)) hc
  have hlabel : c.label = label := by simpa using List.find?_some hc
  refine ⟨raw, entry.2, hstored, hlabel ▸ hvalue, ?_⟩
  rw [Row.get?, Row.pairs, hcolumns]
  exact hfound

/-- Under the name of a field stands first the column of the first field of this name. -/
theorem find?_fieldColumns {name : String} {f : Field} (hf : e.fieldNamed? name = some f)
    (rest : List SelectColumn) :
    (fieldColumns 0 "" e ++ rest).find? (·.label == name) =
      some ⟨⟨0, f.column⟩, f.name, some f.type⟩ := by
  have hown : (fieldColumns 0 "" e).find? (·.label == name) =
      some ⟨⟨0, f.column⟩, f.name, some f.type⟩ := by
    unfold Entity.fieldNamed? at hf
    rw [fieldColumns, List.find?_map]
    simp only [Function.comp_def, String.empty_append, hf, Option.map_some]
  rw [List.find?_append, hown]
  rfl

/-- The type that is known by a label is that of every typed column under it. -/
theorem OneType.lookup_types (h : list.OneType) {c : SelectColumn} (hc : c ∈ list.columns)
    {type : ScalarType} (htype : c.type = some type) : list.types.lookup c.label = some type := by
  refine (lookup_types_of_agree hc fun c' hc' hlabel type' htype' => ?_).trans htype
  rw [htype, h c hc c' hc' hlabel.symm type htype type' htype']

/-- Where a label has one type, its cell is read by the type of its column. -/
theorem OneType.read_of_label (h : list.OneType) {c : SelectColumn} (hc : c ∈ list.columns)
    {type : ScalarType} (htype : c.type = some type) (raw : Value) :
    list.types.read c.label raw = type.coerce raw := by
  rw [ColumnTypes.read, h.lookup_types hc htype]

end SelectList

/-! ### Records -/

/-- The columns of the root stand before all others. -/
theorem Select.columns_of_records (records : q.target = .entity)
    (selects : Select.ofQuery schema q = .ok s) :
    ∃ rest, s.list.columns = SelectList.fieldColumns 0 "" q.entity ++ rest := by
  obtain ⟨_, _, _, hlist, _⟩ := ofQuery_eq_ok selects
  rw [SelectList.ofQuery, records] at hlist
  unfold SelectList.ofEntity at hlist
  simp only [Planning.run_bind_iff, Planning.run_pure_iff] at hlist
  obtain ⟨lists, _, _, hlist, _⟩ := hlist
  exact ⟨lists.flatMap SelectList.columns, by rw [← hlist]⟩

namespace SelectList

variable {rest : List SelectColumn}

/-- Fields of a list that is read as one type for each label are so themselves. -/
theorem OneType.ofEntity (h : list.OneType) (hcolumns : list.columns = fieldColumns 0 "" e ++ rest) :
    e.OneType := by
  have hmem : ∀ f ∈ e.fields, ⟨⟨0, f.column⟩, f.name, some f.type⟩ ∈ list.columns := by
    intro f hf
    rw [hcolumns]
    exact List.mem_append_left _ (List.mem_map.2 ⟨f, hf, by rw [String.empty_append]⟩)
  exact fun f hf g hg hname => h _ (hmem f hf) _ (hmem g hg) hname _ rfl _ rfl

/-- **Under the name of a field is the value of the first field of this name.** -/
theorem OneType.exists_value (h : list.OneType) (hcolumns : list.columns = fieldColumns 0 "" e ++ rest)
    (answers : list.answer joined = .ok values) (first : joined 0 = some start)
    (hrow : Mapping.coerceRow list.types ⟨list.labels, values⟩ = .ok row) {name : String} {f : Field}
    (hf : e.fieldNamed? name = some f) : ∃ v, f.Holds start v ∧ row.get? name = some v := by
  have hfind := find?_fieldColumns hf rest
  rw [← hcolumns] at hfind
  obtain ⟨raw, v, hstored, hread, hfound⟩ := exists_get?_of_find? answers hrow hfind
  obtain rfl : f.name = name := (Entity.mem_of_fieldNamed? hf).2
  rw [h.read_of_label (List.mem_of_find?_eq_some hfind) rfl] at hread
  rw [JoinedRow.value, first] at hstored
  exact ⟨v, Field.holds_iff.2 ⟨raw, hstored, hread⟩, hfound⟩

/-- A field of the root has the value of the first field of its name. -/
theorem OneType.rootField_iff (h : list.OneType)
    (hcolumns : list.columns = fieldColumns 0 "" e ++ rest) (answers : list.answer joined = .ok values)
    (first : joined 0 = some start)
    (hrow : Mapping.coerceRow list.types ⟨list.labels, values⟩ = .ok row) {f : Field}
    (hf : f ∈ e.fields) {entry : String × Value} :
    Mapping.rootField e row f = .ok entry ↔
      entry.1 = f.name ∧ ∃ g, e.fieldNamed? f.name = some g ∧ g.Holds start entry.2 := by
  obtain ⟨g, hg⟩ := Entity.exists_fieldNamed? hf
  obtain ⟨v, hholds, hfound⟩ := h.exists_value hcolumns answers first hrow hg
  obtain ⟨hgMem, hgName⟩ := Entity.mem_of_fieldNamed? hg
  have htype : f.type = g.type := h.ofEntity hcolumns f hf g hgMem hgName.symm
  obtain ⟨raw, _, hcoerce⟩ := Field.holds_iff.1 hholds
  -- Coercing twice is coercing once, so the value that the row gives is the field's.
  have hagain : f.type.coerce v = .ok v := htype ▸ ScalarType.coerce_of_coerce hcoerce
  rw [Mapping.rootField_eq_ok_iff, hfound, Option.some_or]
  constructor
  · rintro ⟨hname, raw', hraw', hentry⟩
    cases hraw'
    rw [hagain] at hentry
    cases hentry
    exact ⟨hname, g, hg, hholds⟩
  · rintro ⟨hname, g', hg', hholds'⟩
    cases hg.symm.trans hg'
    exact ⟨hname, v, rfl, hagain.trans (congrArg _ (hholds.unique hholds'))⟩

end SelectList

/-- A row of an answer to a query for records is recovered, and then read as a record of the root. -/
theorem Select.readRow_records_iff (records : q.target = .entity)
    (selects : Select.ofQuery schema q = .ok s) {answered : Row} {r : Record} :
    Mapping.readRow schema (s.compiled q).plan answered = .ok (.record r) ↔
      ∃ row, Mapping.coerceRow s.list.types answered = .ok row ∧
        Mapping.rootRecord schema s.list.fetched q.entity row = .ok r := by
  have htarget : (s.compiled q).plan.target = .entity := records
  -- For records the plan's root is the query's entity.
  have hmap : ∀ row, Mapping.mapRow schema (s.compiled q).plan row =
      (do return .record (← Mapping.rootRecord schema s.list.fetched q.entity row)) := by
    intro row
    rw [Mapping.mapRow, htarget, ← (Select.plannedFor_of_ofQuery selects).root]
    rfl
  unfold Mapping.readRow
  simp only [bind_eq_ok_iff, hmap, pure_eq_ok_iff, Projected.record.injEq]
  constructor
  · rintro ⟨row, hrow, _, hr, rfl⟩
    exact ⟨row, hrow, hr⟩
  · rintro ⟨row, hrow, hr⟩
    exact ⟨row, hrow, r, hr, rfl⟩

/-- **A record has the values of the fields of its row**, of each the first one of its name. -/
theorem Record.MappedBy.fields {r : Record} (h : r.MappedBy schema q s start)
    (htypes : s.list.OneType) :
    r.entity = q.entity.name ∧
      ∀ entry ∈ r.fields, ∃ f, q.entity.fieldNamed? entry.1 = some f ∧ f.Holds start entry.2 := by
  obtain ⟨records, selects, joined, values, first, answers, reads⟩ := h
  obtain ⟨rest, hcolumns⟩ := Select.columns_of_records records selects
  obtain ⟨row, hrow, hr⟩ := (Select.readRow_records_iff records selects).1 reads
  obtain ⟨fields, hfields, hr⟩ := bind_eq_ok_iff.1 hr
  obtain ⟨links, _, hr⟩ := bind_eq_ok_iff.1 hr
  cases hr
  refine ⟨rfl, fun entry hentry => ?_⟩
  obtain ⟨f, hf, hread⟩ := exists_left_of_forall₂ (listMapM_eq_ok_iff.1 hfields) hentry
  obtain ⟨hname, g, hg, hholds⟩ := (htypes.rootField_iff hcolumns answers first hrow hf).1 hread
  exact ⟨g, hname ▸ hg, hholds⟩

/-! ### Records of typed rows -/

namespace SelectList

open Planning

/-- Where nothing is loaded, an association is read by its key. -/
theorem run_associationColumns_unloaded {a : Association}
    (hnone : ∀ p, plan.fetching? p = none)
    (h : (associationColumns schema root false a).run plan = .ok (list, plan')) :
    list = ⟨(keyColumn 0 "" a).toList, []⟩ ∧ plan' = plan := by
  obtain ⟨_, _, hget, h⟩ := run_bind_iff.1 h
  obtain ⟨rfl, rfl⟩ := run_get_iff.1 hget
  rw [any_fetch_eq, hnone, Option.isSome_none, if_neg Bool.false_ne_true] at h
  obtain ⟨rfl, rfl⟩ := run_pure_iff.1 h
  exact ⟨rfl, rfl⟩

/-- The columns of the fields of an entity, and those of its keys. -/
def unloaded (e : Entity) : SelectList where
  columns := fieldColumns 0 "" e ++ (e.associations.filter (·.isToOne)).flatMap fun a =>
    (keyColumn 0 "" a).toList

/-- Where nothing is loaded, the columns are the fields and the keys. -/
theorem run_ofEntity_unloaded (hnone : ∀ p, plan.fetching? p = none)
    (h : (ofEntity schema root false).run plan = .ok (list, plan')) : list = unloaded root := by
  unfold ofEntity at h
  simp only [run_bind_iff, run_pure_iff] at h
  obtain ⟨lists, last, hlists, rfl, rfl⟩ := h
  unfold unloaded
  generalize root.associations.filter (·.isToOne) = as at hlists
  suffices hall : lists = as.map fun a => ⟨(keyColumn 0 "" a).toList, []⟩ by
    subst hall
    simp [List.flatMap_map]
  -- No association joins anything, so each is read from the plan of the one before unchanged.
  induction as generalizing plan lists last with
  | nil =>
    obtain ⟨rfl, _⟩ := run_pure_iff.1 hlists
    rfl
  | cons a as ih =>
    rw [List.mapM_cons] at hlists
    simp only [run_bind_iff, run_pure_iff] at hlists
    obtain ⟨first, mid, hfirst, more, _, hmore, rfl, _⟩ := hlists
    obtain ⟨rfl, rfl⟩ := run_associationColumns_unloaded hnone hfirst
    rw [ih hnone more _ hmore]
    rfl

/-- Each of these columns is one of a field or one of a key. -/
theorem mem_unloaded {c : SelectColumn} (hc : c ∈ (unloaded e).columns) :
    (∃ f ∈ e.fields, c = ⟨⟨0, f.column⟩, f.name, some f.type⟩) ∨
      ∃ a ∈ e.associations, ∃ column, a.joinColumn? = some column ∧
        c = ⟨⟨0, column⟩, keyMarker ++ a.name, none⟩ := by
  rcases List.mem_append.1 hc with hc | hc
  · obtain ⟨f, hf, rfl⟩ := List.mem_map.1 hc
    exact .inl ⟨f, hf, by rw [String.empty_append]⟩
  · obtain ⟨a, ha, hc⟩ := List.mem_flatMap.1 hc
    obtain ⟨column, hcolumn, rfl⟩ := Option.map_eq_some_iff.1 (Option.mem_toList.1 hc)
    exact .inr ⟨a, (List.mem_filter.1 ha).1, column, hcolumn, by rw [String.empty_append]⟩

/-- Only the columns of fields have a type here. -/
theorem oneType_unloaded (h : e.OneType) : (unloaded e).OneType := by
  intro c hc c' hc' hlabel type htype type' htype'
  rcases mem_unloaded hc with ⟨f, hf, rfl⟩ | ⟨_, _, _, _, rfl⟩
  · rcases mem_unloaded hc' with ⟨g, hg, rfl⟩ | ⟨_, _, _, _, rfl⟩
    · cases htype
      cases htype'
      exact h f hf g hg hlabel
    · cases htype'
  · cases htype

end SelectList

/-- What is bound for null or an integer is recovered, whatever the type. -/
theorem ScalarType.exists_coerce_key {v : Value} {stored : Stored} (h : ScalarType.integer.Has v)
    (hbound : Connection.bind v = .ok stored) :
    ∃ raw, Value.ofStored stored = .ok raw ∧ ∀ type : ScalarType, ∃ w, type.coerce raw = .ok w := by
  cases h with
  | null =>
    cases hbound
    exact ⟨.null, rfl, fun type => ⟨.null, by cases type <;> rfl⟩⟩
  | integer n =>
    cases hbound
    exact ⟨.integer n, rfl, fun type => by cases type <;> exact ⟨_, rfl⟩⟩

/-- Where each column can be read and recovered, so can the whole row. -/
theorem SelectList.exists_coerceRow_of_reads
    (hreads : ∀ c ∈ list.columns, ∃ raw, Value.ofStored (joined.value c.column) = .ok raw ∧
      ∃ v, list.types.read c.label raw = .ok v) :
    ∃ values row, list.answer joined = .ok values ∧
      Mapping.coerceRow list.types ⟨list.labels, values⟩ = .ok row := by
  obtain ⟨values, answers, hcells⟩ : ∃ values, list.answer joined = .ok values ∧
      List.Forall₂ (fun (c : SelectColumn) raw => ∃ v, list.types.read c.label raw = .ok v)
        list.columns values :=
    exists_listMapM hreads
  obtain ⟨row, hrow⟩ : ∃ row, Mapping.coerceRow list.types ⟨list.labels, values⟩ = .ok row := by
    rw [Mapping.exists_coerceRow_iff, pairs_eq_map_cells, List.forall_mem_map]
    intro cell hcell
    exact (List.forall₂_iff_zip.1 hcells).2 hcell
  exact ⟨values, row, answers, hrow⟩

/-- In a row with values of the declared types each column can be read, and what is read can be recovered
    by whatever type its label has. -/
theorem Entity.Types.reads_unloaded (h : e.Types start)
    (hone : (SelectList.unloaded e).OneType) :
    ∀ c ∈ (SelectList.unloaded e).columns,
      ∃ raw, Value.ofStored ((JoinedRow.ofRoot start).value c.column) = .ok raw ∧
        ∃ v, (SelectList.unloaded e).types.read c.label raw = .ok v := by
  intro c hc
  rcases SelectList.mem_unloaded hc with ⟨f, hf, rfl⟩ | ⟨a, ha, column, hcolumn, rfl⟩
  · obtain ⟨v, hv, hbound⟩ := h.fields f hf
    obtain ⟨v', hrecover, _⟩ := ScalarType.exists_recover hv hbound
    obtain ⟨raw, hraw, hcoerce⟩ := bind_eq_ok_iff.1 hrecover
    exact ⟨raw, hraw, v', (hone.read_of_label hc rfl raw).trans hcoerce⟩
  · obtain ⟨v, hv, hbound⟩ := h.keys a ha column hcolumn
    obtain ⟨raw, hraw, hcoerce⟩ := ScalarType.exists_coerce_key hv hbound
    refine ⟨raw, hraw, ?_⟩
    -- A key's label may have got a type from a field; a key reads under any.
    unfold ColumnTypes.read
    split
    · exact hcoerce _
    · exact ⟨raw, rfl⟩

/-- **A row with values of the declared types has a record**, for every query that loads nothing with it. -/
theorem Entity.Types.exists_mappedBy (h : q.entity.Types start) (records : q.target = .entity)
    (hnone : ∀ p, q.fetches p = false) (selects : Select.ofQuery schema q = .ok s)
    (htypes : q.entity.OneType) :
    s.list.OneType ∧ ∃ r, Record.MappedBy schema q s start r := by
  -- The query loads nothing, so these are its columns.
  have hlist : s.list = SelectList.unloaded q.entity := by
    obtain ⟨deciding, _, hjoins, hlist, _⟩ := Select.ofQuery_eq_ok selects
    rw [SelectList.ofQuery, records] at hlist
    refine SelectList.run_ofEntity_unloaded (fun p => ?_) hlist
    have hfetching := Select.fetching?_planJoins (p := p) hjoins
    rw [hnone, Option.isSome_eq_false_iff, Option.isNone_iff_eq_none] at hfetching
    exact hfetching
  have hone : s.list.OneType := hlist ▸ SelectList.oneType_unloaded htypes
  obtain ⟨rest, hcolumns⟩ := Select.columns_of_records records selects
  obtain ⟨values, row, answers, hrow⟩ := SelectList.exists_coerceRow_of_reads
    (hlist ▸ h.reads_unloaded (SelectList.oneType_unloaded htypes))
  obtain ⟨r, hr⟩ : ∃ r, Mapping.rootRecord schema [] q.entity row = .ok r := by
    refine Mapping.exists_rootRecord fun f hf => ?_
    obtain ⟨g, hg⟩ := Entity.exists_fieldNamed? hf
    obtain ⟨v, hv, _⟩ := hone.exists_value hcolumns answers rfl hrow hg
    exact ⟨(f.name, v), (hone.rootField_iff hcolumns answers rfl hrow hf).2 ⟨rfl, g, hg, hv⟩⟩
  refine ⟨hone, r, records, selects, .ofRoot start, values, rfl, answers, ?_⟩
  refine (Select.readRow_records_iff records selects).2 ⟨row, hrow, ?_⟩
  rw [hlist]
  exact hr

end EntityQuery
