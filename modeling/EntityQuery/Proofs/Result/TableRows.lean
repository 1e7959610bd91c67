import EntityQuery.Proofs.Result.Arguments
import EntityQuery.Proofs.Result.Told

namespace EntityQuery

/-!
# Rows of whole tables

Text for the store can ask for all columns of a table, and then they come back under their own names
and in any order.  The mapper looks for a field under its name before it looks under its column, so
what it finds is the field's own column unless the name is that of another column of the table
(`Entity.ReadsOwn`).  Under this condition each field and each foreign key has the value of its own
column (`Record.OfTableRow`, `native_rows_mapped`); without it two fields can change places
(`native_fields_swapped`).
-/

namespace Entity

/-- The columns of the table of an entity: those of its fields and its foreign keys. -/
def tableColumns (e : Entity) : List String :=
  e.fields.map (·.column) ++ e.associations.filterMap (·.joinColumn?)

/-- What is looked for under a label before it is looked for in its column is found in no other
    column of the table. -/
def ReadsOwn (e : Entity) (label column : String) : Prop := label ∈ e.tableColumns → label = column

instance (e : Entity) (label column : String) : Decidable (e.ReadsOwn label column) :=
  inferInstanceAs (Decidable (_ → _))

variable {e : Entity}

/-- The column of a field is one of the table's. -/
theorem column_mem_tableColumns {f : Field} (hf : f ∈ e.fields) : f.column ∈ e.tableColumns :=
  List.mem_append_left _ (List.mem_map_of_mem hf)

/-- So is the column of a key. -/
theorem joinColumn_mem_tableColumns {a : Association} {column : String} (ha : a ∈ e.associations)
    (hkind : a.kind = .toOne column) : column ∈ e.tableColumns :=
  List.mem_append_right _ (List.mem_filterMap.2 ⟨a, ha, by simp [Association.joinColumn?, hkind]⟩)

end Entity

namespace Row

/-- The row has one column of the name, with the given value. -/
def HasOnly (row : Row) (column : String) (v : Value) : Prop :=
  row.columns.count column = 1 ∧ (column, v) ∈ row.pairs

/-- The columns of the row are those of the table of an entity in some order, each with a value. -/
structure OfTable (row : Row) (e : Entity) : Prop where
  full : row.values.length = row.columns.length
  columns : row.columns.Perm e.tableColumns

instance (row : Row) (e : Entity) : Decidable (row.OfTable e) :=
  decidable_of_iff (row.values.length = row.columns.length ∧ row.columns.Perm e.tableColumns)
    ⟨fun ⟨hfull, hcolumns⟩ => ⟨hfull, hcolumns⟩, fun ⟨hfull, hcolumns⟩ => ⟨hfull, hcolumns⟩⟩

variable {row : Row} {name label column : String}

/-- A column of the row has a value there. -/
theorem exists_get? (hlength : row.values.length = row.columns.length) (hname : name ∈ row.columns) :
    ∃ v, (name, v) ∈ row.pairs ∧ row.get? name = some v := by
  obtain ⟨raw, hraw⟩ := exists_pair hlength hname
  cases hfound : row.pairs.lookup name with
  | none => simpa using List.lookup_eq_none_iff.1 hfound _ hraw
  | some v =>
    obtain ⟨before, after, hpairs, _⟩ := List.lookup_eq_some_iff.1 hfound
    exact ⟨v, hpairs ▸ List.mem_append_right _ (.head _), hfound⟩

/-- What is no column of the row has none. -/
theorem get?_eq_none (hlength : row.values.length = row.columns.length) (hname : name ∉ row.columns) :
    row.get? name = none := by
  rw [get?, List.lookup_eq_none_iff]
  rintro ⟨column, v⟩ hpair
  rw [← map_fst_pairs hlength] at hname
  simpa using fun h : name = column => hname (h ▸ List.mem_map_of_mem hpair)

/-- **What is looked for under a label and then in its column is the value of that column**, unless the
    label is that of another column. -/
theorem OfTable.exists_hasOnly {e : Entity} (h : row.OfTable e) (hdistinct : e.tableColumns.Nodup)
    (hcolumn : column ∈ e.tableColumns) (hown : e.ReadsOwn label column) :
    ∃ v, row.HasOnly column v ∧ (row.get? label).or (row.get? column) = some v := by
  have hcount : row.columns.count column = 1 :=
    (h.columns.count_eq column).trans (List.count_eq_one_of_mem hdistinct hcolumn)
  obtain ⟨v, hpair, hfound⟩ := exists_get? h.full (h.columns.mem_iff.2 hcolumn)
  refine ⟨v, ⟨hcount, hpair⟩, ?_⟩
  by_cases hlabel : label ∈ e.tableColumns
  · rw [hown hlabel, hfound]
    rfl
  · rw [get?_eq_none h.full fun hmem => hlabel (h.columns.mem_iff.1 hmem), hfound]
    rfl

end Row

/-! ### Records of table rows -/

/-- A link carries a foreign key: a null key leads nowhere, and any other one is kept. -/
def Link.Carries (target : String) (key : Value) (link : Link) : Prop :=
  (key = .null ∧ link = .loaded none) ∨ (key ≠ .null ∧ link = .unresolved target key)

/-- A link made of a key carries that key. -/
theorem Mapping.carries_linkOfKey (target : String) (key : Value) :
    (linkOfKey target (some key)).Carries target key := by
  cases key with
  | null => exact .inl ⟨rfl, rfl⟩
  | _ => exact .inr ⟨nofun, rfl⟩

/-- The record of an entity whose values are those of the columns of a row of its table, as far as
    these are read: each field has the recovered value of its own column, and the link of each to-one
    association carries the value of its own foreign key. -/
structure Record.OfTableRow (e : Entity) (row : Row) (r : Record) : Prop where
  entity : r.entity = e.name
  fields : List.Forall₂ (fun (f : Field) entry => entry.1 = f.name ∧
    (e.ReadsOwn f.name f.column →
      ∃ raw, row.HasOnly f.column raw ∧ f.type.coerce raw = .ok entry.2)) e.fields r.fields
  links : List.Forall₂ (fun (a : Association) entry => entry.1 = a.name ∧
    ∀ column, a.kind = .toOne column → e.ReadsOwn (keyMarker ++ a.name) column →
      ∃ key, row.HasOnly column key ∧ entry.2.Carries a.target key) e.associations r.links

namespace Mapping

variable {schema : Schema} {e : Entity} {row : Row}

/-- A named value is read exactly if the value is. -/
theorem named_eq_ok_iff {x : Except ReadFault Value} {name : String} {entry : String × Value} :
    (do return (name, ← x)) = Except.ok entry ↔ entry.1 = name ∧ x = .ok entry.2 := by
  simp only [bind_eq_ok_iff, pure_eq_ok_iff]
  constructor
  · rintro ⟨v, hv, rfl⟩
    exact ⟨rfl, hv⟩
  · rintro ⟨rfl, hv⟩
    exact ⟨entry.2, hv, rfl⟩

/-- The value of a field is that under its name, or else that under its column. -/
theorem rootField_eq_ok_iff {f : Field} {entry : String × Value} :
    rootField e row f = .ok entry ↔ entry.1 = f.name ∧
      ∃ raw, (row.get? f.name).or (row.get? f.column) = some raw ∧ f.type.coerce raw = .ok entry.2 := by
  unfold rootField
  split
  · rename_i hname
    simpa [hname] using named_eq_ok_iff
  · rename_i hname hcolumn
    simpa [hname, hcolumn] using named_eq_ok_iff
  · rename_i hname hcolumn
    simp [hname, hcolumn, throw_ne_ok]

/-- The record of a table row, whatever its labels hit. -/
theorem ofTableRow_of_rootRecord (hrow : row.OfTable e) (hdistinct : e.tableColumns.Nodup) {r : Record}
    (h : rootRecord schema [] e row = .ok r) : r.OfTableRow e row := by
  unfold rootRecord at h
  obtain ⟨fields, hfields, h⟩ := bind_eq_ok_iff.1 h
  obtain ⟨links, hlinks, h⟩ := bind_eq_ok_iff.1 h
  cases h
  rw [listMapM_eq_ok_iff] at hfields hlinks
  refine ⟨rfl, ?_, ?_⟩
  · refine (List.forall₂_and_left _ _).2 ⟨fun _ => id, hfields⟩ |>.imp ?_
    -- A name that is no column of the table is read from the field's column, which stands there once.
    rintro f entry ⟨hf, hentry⟩
    obtain ⟨hname, raw, hraw, hcoerce⟩ := rootField_eq_ok_iff.1 hentry
    refine ⟨hname, fun hown => ?_⟩
    obtain ⟨raw', honly, hfound⟩ :=
      hrow.exists_hasOnly hdistinct (Entity.column_mem_tableColumns hf) hown
    obtain rfl := Option.some.inj (hraw.symm.trans hfound)
    exact ⟨raw, honly, hcoerce⟩
  · refine (List.forall₂_and_left _ _).2 ⟨fun _ => id, hlinks⟩ |>.imp ?_
    rintro a entry ⟨ha, hentry⟩
    refine ⟨rootLink_fst hentry, fun column hkind hown => ?_⟩
    obtain ⟨key, honly, hfound⟩ :=
      hrow.exists_hasOnly hdistinct (Entity.joinColumn_mem_tableColumns ha hkind) hown
    simp only [rootLink, hkind, List.contains_nil, Bool.false_eq_true, if_false] at hentry
    cases hentry
    rw [hfound]
    exact ⟨key, honly, carries_linkOfKey a.target key⟩

/-- Without types and fetched associations a row is read as it is. -/
theorem readRow_eq_ok_iff {result : Projected} :
    readRow schema { target := .entity, entity := some e } row = .ok result ↔
      ∃ r, rootRecord schema [] e row = .ok r ∧ result = .record r := by
  show (do return .record (← rootRecord schema [] e row)) = Except.ok result ↔ _
  simp only [bind_eq_ok_iff, pure_eq_ok_iff, @eq_comm _ (Projected.record _)]

/-- Where no association is loaded with it, a row has a record as soon as its fields are read. -/
theorem exists_rootRecord (hfields : ∀ f ∈ e.fields, ∃ entry, rootField e row f = .ok entry) :
    ∃ r, rootRecord schema [] e row = .ok r := by
  obtain ⟨fields, hfields⟩ : ∃ fields, e.fields.mapM (rootField e row) = .ok fields := by
    simp only [listMapM_eq_ok_iff]
    exact exists_forall₂ hfields
  obtain ⟨links, hlinks⟩ : ∃ links, e.associations.mapM
      (rootLink schema [] row (bareRecord e fields).id) = .ok links := by
    simp only [listMapM_eq_ok_iff]
    refine exists_forall₂ fun a _ => ?_
    -- Without fetched associations a link is made of a key and cannot fail.
    unfold rootLink
    split
    · exact ⟨_, rfl⟩
    · exact ⟨_, rfl⟩
  exact ⟨_, bind_eq_ok_iff.2 ⟨fields, hfields, bind_eq_ok_iff.2 ⟨links, hlinks, rfl⟩⟩⟩

/-- A table row has a record, if each field finds its own column and can be recovered from it. -/
theorem exists_rootRecord_of_table (hrow : row.OfTable e) (hdistinct : e.tableColumns.Nodup)
    (howns : ∀ f ∈ e.fields, e.ReadsOwn f.name f.column)
    (hreads : ∀ f ∈ e.fields, ∀ raw, row.HasOnly f.column raw → ∃ v, f.type.coerce raw = .ok v) :
    ∃ r, rootRecord schema [] e row = .ok r := by
  refine exists_rootRecord fun f hf => ?_
  obtain ⟨raw, honly, hfound⟩ :=
    hrow.exists_hasOnly hdistinct (Entity.column_mem_tableColumns hf) (howns f hf)
  obtain ⟨v, hv⟩ := hreads f hf raw honly
  exact ⟨(f.name, v), rootField_eq_ok_iff.2 ⟨rfl, raw, hfound, hv⟩⟩

end Mapping

/-! ### Answers to text for the store -/

/-- A native query is mapped with its target and its entity, and nothing else. -/
theorem NativeQuery.plan_of_compile {q : NativeQuery} {c : Compiled} (h : q.compile = .ok c) :
    c.plan = { target := q.target, entity := q.entity } := by
  unfold compile at h
  split at h
  · cases h
  split at h
  · cases h
  cases h
  rfl

variable {schema : Schema} {e : Entity} {q : NativeQuery} {c : Compiled} {rows : RowSet}

/-- **Rows of a whole table are mapped column by column.**  Each field and each foreign key of the
    records has the value of its own column, unless what is looked for before it is the name of another
    column; and where this is so of no field, the rows are mapped as soon as their values have the types
    of the fields. -/
theorem native_rows_mapped (hentity : q.entity = some e) (htarget : q.target = .entity)
    (hcompile : q.compile = .ok c) (hdistinct : e.tableColumns.Nodup)
    (hrows : ∀ row ∈ rows.toRows, row.OfTable e) :
    (∀ results, Mapping.mapRows schema c.plan rows = .ok results →
      List.Forall₂ (fun row result => ∃ r, result = .record r ∧ r.OfTableRow e row)
        rows.toRows results) ∧
    ((∀ f ∈ e.fields, e.ReadsOwn f.name f.column) →
      (∀ row ∈ rows.toRows, ∀ f ∈ e.fields, ∀ raw, row.HasOnly f.column raw →
        ∃ v, f.type.coerce raw = .ok v) →
      ∃ results, Mapping.mapRows schema c.plan rows = .ok results) := by
  have hplan : c.plan = { target := .entity, entity := some e } := by
    rw [q.plan_of_compile hcompile, htarget, hentity]
  simp only [hplan, Mapping.mapRows_eq_ok_iff, Mapping.readRow_eq_ok_iff]
  constructor
  · rintro results ⟨-, hresults⟩
    refine (List.forall₂_and_left _ _).2 ⟨hrows, hresults⟩ |>.imp ?_
    rintro row result ⟨hrow, r, hr, rfl⟩
    exact ⟨r, rfl, Mapping.ofTableRow_of_rootRecord hrow hdistinct hr⟩
  -- If no alias hides a column, each field is read from its own, and those values can be read.
  · intro howns hreads
    have hrecords : ∀ row ∈ rows.toRows, ∃ result, ∃ r,
        Mapping.rootRecord schema [] e row = .ok r ∧ result = Projected.record r := by
      intro row hrow
      obtain ⟨r, hr⟩ :=
        Mapping.exists_rootRecord_of_table (hrows row hrow) hdistinct howns (hreads row hrow)
      exact ⟨.record r, r, hr, rfl⟩
    obtain ⟨results, hresults⟩ := exists_forall₂ hrecords
    exact ⟨results, rfl, hresults⟩

namespace Sample

/-- Text for the store that asks for all columns of the members. -/
def allOfMembers : NativeQuery :=
  { sql := "select * from member", entity := some member, shape := .list }

/-- Two members; the columns of the table are in an order of its own. -/
def memberTable : RowSet :=
  ⟨["team_id", "member_id", "age"],
    [[.null, .integer 1, .integer 20], [.integer 7, .integer 2, .null]]⟩

end Sample

/-- All columns of two members. -/
theorem native_rows_mapped_allOfMembers :
    ∃ c results, Sample.allOfMembers.compile = .ok c ∧ Sample.member.tableColumns.Nodup ∧
      (∀ row ∈ Sample.memberTable.toRows, row.OfTable Sample.member) ∧
      (∀ f ∈ Sample.member.fields, Sample.member.ReadsOwn f.name f.column) ∧
      Mapping.mapRows Sample.league c.plan Sample.memberTable = .ok results ∧
      List.Forall₂ (fun row result => ∃ r, result = .record r ∧ r.OfTableRow Sample.member row)
        Sample.memberTable.toRows results := by
  have hdistinct : Sample.member.tableColumns.Nodup := by decide
  have hrows : ∀ row ∈ Sample.memberTable.toRows, row.OfTable Sample.member := by decide
  have howns : ∀ f ∈ Sample.member.fields, Sample.member.ReadsOwn f.name f.column := by decide
  have hreads : ∀ row ∈ Sample.memberTable.toRows, ∀ f ∈ Sample.member.fields, ∀ raw,
      row.HasOnly f.column raw → ∃ v, f.type.coerce raw = .ok v := by
    intro row _ f hf raw _
    have htype : ∀ f ∈ Sample.member.fields, f.type = .integer := by decide
    exact ⟨raw, by rw [htype f hf]; cases raw <;> rfl⟩
  obtain ⟨hcolumns, hmaps⟩ :=
    @native_rows_mapped Sample.league _ Sample.allOfMembers _ _ rfl rfl rfl hdistinct hrows
  obtain ⟨results, hresults⟩ := hmaps howns hreads
  exact ⟨_, results, rfl, hdistinct, hrows, howns, hresults, hcolumns results hresults⟩

namespace Sample

/-- The column of each side is called like the other side. -/
def pair : Entity :=
  ((({ name := "Pair", table := "pair" } : Entity).withId "id" "pair_id").withFieldIn
    "left" "right" .integer false).withFieldIn "right" "left" .integer false

/-- All pairs. -/
def allPairs : NativeQuery :=
  { sql := "select * from pair", entity := some pair, shape := .list }

/-- One pair, with its left side 10 and its right side 20. -/
def pairTable : RowSet :=
  ⟨["pair_id", "right", "left"], [[.integer 1, .integer 10, .integer 20]]⟩

end Sample

/-- **Names that are columns of others are found first**: the left side is in the column `right`, but
    the record has the value of the column `left` for it. -/
theorem native_fields_swapped :
    Schema.build [Sample.pair] = .ok ⟨[Sample.pair]⟩ ∧ (Sample.pair.fields.map (·.name)).Nodup ∧
      Sample.pair.tableColumns.Nodup ∧ (∀ row ∈ Sample.pairTable.toRows, row.OfTable Sample.pair) ∧
      Sample.pair.columnOf? "left" = some "right" ∧
      (∀ row ∈ Sample.pairTable.toRows, row.HasOnly "right" (.integer 10)) ∧
      ∃ c r, Sample.allPairs.compile = .ok c ∧
        Mapping.mapRows ⟨[Sample.pair]⟩ c.plan Sample.pairTable = .ok [.record r] ∧
        r.get? "left" = some (.integer 20) := by
  refine ⟨by decide, by decide, by decide, by decide, by decide, ?_, _, _, rfl, rfl, rfl⟩
  exact List.forall_mem_singleton.2 ⟨by decide, .tail _ (.head _)⟩

end EntityQuery
