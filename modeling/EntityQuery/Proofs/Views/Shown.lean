import EntityQuery.Proofs.Result.Decoded
import EntityQuery.Proofs.Rows.Answers
import EntityQuery.Proofs.Views.Columns

namespace EntityQuery

open JoinPlan

/-!
# What records and views show

Records and closed views are both compared with the database that they were read from: each entry has
the value of its field in the row of the root, or in the row that the root points at.

* `Record.Shows`, `Record.ShowsLinks`: the fields of a record, and its to-one associations where all
  of them are loaded (`exists_planRecord_shows`);
* `Accessor.Shows`: the entry of an accessor (`exists_closedView_shows`).  That a nested view is there
  is told by the foreign key, that an association is loaded by the identifier of its target; the
  partner of the row decides both.
-/

/-! ### Lookups by name -/

/-- Entries that stand for named items are found by the names of these. -/
theorem exists_lookup_of_forall₂ {α β : Type} {R : α → String × β → Prop} {name : α → String}
    (hR : ∀ {a entry}, R a entry → entry.1 = name a) {as : List α} {entries : List (String × β)}
    (h : List.Forall₂ R as entries) (hnames : (as.map name).Nodup) {a : α} (ha : a ∈ as) :
    ∃ entry, R a entry ∧ entries.lookup (name a) = some entry.2 := by
  induction h with
  | nil => cases ha
  | @cons x entry as entries hx _ ih =>
    rw [List.map_cons, List.nodup_cons] at hnames
    rw [lookup_cons_ite, hR hx]
    rcases List.mem_cons.1 ha with rfl | ha
    · exact ⟨entry, hx, by simp⟩
    · have hne : name a ≠ name x := fun heq => hnames.1 (heq ▸ List.mem_map_of_mem ha)
      rw [if_neg hne]
      exact ih hnames.2 ha

section Specification

variable {schema : Schema}

/-- The fields of a record have their values in a row. -/
def Record.Shows (r : Record) (e : Entity) (row : TableRow) : Prop :=
  ∀ f ∈ e.fields, ∃ v, f.Holds row v ∧ r.get? f.name = some v

/-- The to-one associations of a record are loaded: they show the rows that its row points at. -/
def Record.ShowsLinks (db : Database schema) (r : Record) (root : Entity) (start : TableRow) : Prop :=
  ∀ name hop, schema.hop? root name = some hop →
    match db.partner hop start with
    | none => r.link? name = some (.loaded none)
    | some other => ∃ t, r.link? name = some (.loaded (some t)) ∧ t.Shows hop.target other

/-- An entry has the value of a field in a row. -/
def ViewEntry.ShowsField (e : Entity) (row : TableRow) (name : String) (entry : String × ViewEntry) :
    Prop :=
  ∃ f v, e.fieldNamed? name = some f ∧ f.Holds row v ∧ entry = (name, .value v)

/-- The entry of an accessor of a nested view, which names a field. -/
def Accessor.ShowsBehind (target : Entity) (other : TableRow) (accessor : Accessor)
    (entry : String × ViewEntry) : Prop :=
  ∃ name, accessor = .field name ∧ ViewEntry.ShowsField target other name entry

/-- The entry of an accessor; a nested view is missing exactly if the row points at no other one. -/
def Accessor.Shows (db : Database schema) (root : Entity) (start : TableRow) (accessor : Accessor)
    (entry : String × ViewEntry) : Prop :=
  match accessor with
  | .field name => ViewEntry.ShowsField root start name entry
  | .nested name view => ∃ hop, schema.hop? root name = some hop ∧
    match db.partner hop start with
    | none => entry = (name, .nested none)
    | some other => ∃ v : View, entry = (name, .nested (some v)) ∧ v.name = view.name ∧
      List.Forall₂ (Accessor.ShowsBehind hop.target other) view.accessors v.entries

end Specification

variable {schema : Schema} {root : Entity} {db : Database schema} {start : TableRow}
variable {q : Query} {s : Select} {joined : JoinedRow} {values : List Value} {row : Row}

/-- The cells of an answer are what was stored in the joined row. -/
def SelectList.CellsOf (list : SelectList) (values : List Value) (joined : JoinedRow) : Prop :=
  ∀ cell ∈ list.cells values, Value.ofStored (joined.value cell.1.column) = .ok cell.2

/-- Where a label stands for one column, the same was stored under it. -/
theorem SelectList.CellsOf.apart {list : SelectList} (h : list.CellsOf values joined)
    (hlabels : ∀ c ∈ list.columns, ∀ c' ∈ list.columns, c.label = c'.label → c = c') :
    list.Apart values := by
  rintro ⟨c, raw⟩ hcell ⟨c', raw'⟩ hcell' hlabel
  obtain rfl := hlabels c (List.of_mem_zip hcell).1 c' (List.of_mem_zip hcell').1 hlabel
  obtain rfl : raw = raw' := Except.ok.inj ((h _ hcell).symm.trans (h _ hcell'))
  rfl

/-! ### Records -/

/-- A record that was decoded from the cells of a row shows the row of its table. -/
theorem Decodes.shows {list : SelectList} {table : Nat} {before : String} {e : Entity}
    {decodesLink : Value → Association → Link → Prop} {r : Record} {other : TableRow}
    (h : Decodes (list.cells values) table before e decodesLink r) (hnames : e.PlainNames)
    (hcells : list.CellsOf values joined) (htable : joined table = some other) :
    r.Shows e other := by
  intro f hf
  obtain ⟨⟨_, v⟩, ⟨_, raw, hcell, hcoerce⟩, hfound⟩ :=
    exists_lookup_of_forall₂ And.left h.fields hnames.nodup_fields hf
  have hraw := hcells _ hcell
  simp only [JoinedRow.value, htable] at hraw
  exact ⟨v, Field.holds_iff.2 ⟨raw, hraw, hcoerce⟩, hfound⟩

/-- A record whose to-one associations are all loaded shows them. -/
theorem Decodes.showsLinks {plan : JoinPlan} {list : SelectList} {r : Record}
    {decodesLoaded : Association → Bool} (hloaded : ∀ a, decodesLoaded a = true)
    (h : Decodes (list.cells values) 0 "" root
      (DecodesLink (list.cells values) schema plan decodesLoaded) r)
    (hnames : ∀ e ∈ root :: schema.entities, e.PlainNames)
    (hplanned : Planned schema root plan.joins) (hfollows : Follows db root start plan.joins joined)
    (hcells : list.CellsOf values joined) : r.ShowsLinks db root start := by
  intro name hop hhop
  have hroot := hnames root List.mem_cons_self
  obtain ⟨a, ha, rfl, hkey⟩ := Schema.association_of_hop? hhop
  have htoOne : a.isToOne = true := by simp [Association.isToOne, hkey]
  obtain ⟨⟨_, link⟩, ⟨_, hdecodes⟩, hlink⟩ :=
    exists_lookup_of_forall₂ And.left h.links hroot.nodup_associations ha
  unfold DecodesLink at hdecodes
  rw [htoOne, hloaded, Bool.and_self, if_pos rfl] at hdecodes
  obtain ⟨join, hjoin, hpath, htarget, idField, key, hid, hcell, hlinkOf⟩ := hdecodes
  have hrow := hfollows.row_eq_partner hjoin hpath hhop
  obtain rfl := Option.some.inj ((hplanned.hop?_eq hjoin hpath).symm.trans hhop)
  -- The identifier that was read is null exactly if there is no partner.
  have hnull : key = .null ↔ db.partner _ start = none :=
    (Value.ofStored_eq_null_iff (hcells _ hcell)).trans
      (hfollows.id_eq_null_iff hplanned hjoin hpath hhop hid)
  rcases hlinkOf with ⟨hkey, hnone⟩ | ⟨hkey, t, hsome, hdecodesTarget⟩
  · rw [hnull.1 hkey, ← hnone]
    exact hlink
  · obtain ⟨other, hpartner⟩ := Option.ne_none_iff_exists'.1 fun hnone => hkey (hnull.2 hnone)
    rw [hpartner]
    have htargetNames : join.target.PlainNames :=
      hnames _ (List.mem_cons_of_mem _ (List.mem_of_find?_eq_some htarget))
    exact ⟨t, hsome ▸ hlink, hdecodesTarget.shows htargetNames hcells (hrow.trans hpartner)⟩

namespace SelectList

/-- Every column of a record can be read from the tables of a readable row. -/
theorem exists_reads_ofPlan {plan : JoinPlan} (hplanned : Planned schema root plan.joins)
    (hfollows : Follows db root start plan.joins joined) (hreadable : db.ReadableFrom root start) :
    ∀ c ∈ (ofPlan plan root).columns, ∃ v, c.Reads joined v := by
  -- The columns of a table can be read if its row can, which is so for the root and for whatever is loaded
  -- behind it.
  have hfields : ∀ {e : Entity} {table : Nat} {before : String},
      (∀ r, joined table = some r → e.Readable r) →
      ∀ c ∈ fieldColumns table before e, ∃ v, c.Reads joined v := by
    intro e table before hread c hc
    obtain ⟨f, hf, rfl⟩ := List.mem_map.1 hc
    exact exists_reads_field hread hf _
  have hkeys : ∀ {e : Entity} {table : Nat} {before : String},
      (∀ r, joined table = some r → e.Readable r) → ∀ a ∈ e.associations, ∀ c,
      keyColumn table before a = some c → ∃ v, c.Reads joined v := by
    intro e table before hread a ha c hc
    obtain ⟨column, hcolumn, rfl⟩ := Option.map_eq_some_iff.1 hc
    exact exists_reads_key hread ha hcolumn _
  have hroot := hfollows.readable_root hreadable
  intro c hc
  rcases List.mem_append.1 hc with hc | hc
  · exact hfields hroot c hc
  · obtain ⟨a, ha, hc⟩ := List.mem_flatMap.1 hc
    unfold associationPart at hc
    split at hc
    · rename_i table target hloaded
      obtain ⟨join, hjoin, hpath, rfl, rfl⟩ := fetching?_eq_some hloaded
      have htarget := hfollows.readable hplanned hreadable hjoin hpath
      rcases List.mem_append.1 hc with hc | hc
      · exact hfields htarget c hc
      · obtain ⟨b, hb, hc⟩ := List.mem_filterMap.1 hc
        exact hkeys htarget b hb c hc
    · exact hkeys hroot a (List.mem_filter.1 ha).1 c (Option.mem_toList.1 hc)

end SelectList

/-- **The record of an opened view shows the database**: the row of the root in its fields, and the
    rows that it points at in its links. -/
theorem exists_planRecord_shows {view : OpenView} (htarget : q.target = .opened view)
    (hnames : ∀ e ∈ q.entity :: schema.entities, e.PlainNames)
    (hs : Select.ofQuery schema q = .ok s)
    (hfollows : Follows db q.entity start s.plan.joins joined)
    (hreadable : db.ReadableFrom q.entity start) :
    ∃ values row r, s.list.answer joined = .ok values ∧
      Mapping.coerceRow s.list.types ⟨s.list.labels, values⟩ = .ok row ∧
      Mapping.planRecord schema (s.compiled q).plan row = .ok r ∧
      r.Shows q.entity start ∧ r.ShowsLinks db q.entity start := by
  have hplanned := (Select.plannedFor_of_ofQuery hs).planned
  have hroot := hnames q.entity List.mem_cons_self
  -- An open view is computed of whole records, so the list is that of an entity.
  have hlist : SelectList.ofQuery schema q = SelectList.ofEntity schema q.entity true := by
    rw [SelectList.ofQuery, htarget]
  obtain ⟨hofPlan, _⟩ := Select.list_eq_ofPlan hroot.nodup_associations hlist hs
  have hreads := SelectList.exists_reads_ofPlan hplanned hfollows hreadable
  rw [← hofPlan] at hreads
  obtain ⟨values, hvalues, hlength, hcells⟩ := SelectList.exists_answer hreads
  obtain ⟨row, r, hrow, hr, hdecodes⟩ :=
    exists_planRecord hnames hlist hs hlength fun cell hcell => (hcells cell hcell).2
  have hcellsOf : s.list.CellsOf values joined := fun cell hcell => (hcells cell hcell).1
  refine ⟨values, row, r, hvalues, hrow, hr, ?_, ?_⟩
  · exact hdecodes.shows hroot hcellsOf hfollows.atRoot
  · exact hdecodes.showsLinks (fun _ => rfl) hnames hplanned hfollows hcellsOf

/-! ### Closed views -/

namespace Mapping

/-- The entry of one accessor of a closed view. -/
def closedEntry (row : Row) (before view : String) : Accessor → Except ReadFault (String × ViewEntry)
  | .field name =>
    match row.get? (before ++ name) with
    | none => .error (.noViewColumn view (before ++ name))
    | some v => .ok (name, .value v)
  | .nested name nested =>
    match row.get? (before ++ keyMarker ++ name) with
    | some .null => .ok (name, .nested none)
    | _ => do return (name, .nested (some (← closedView row (before ++ name ++ ".") nested)))

/-- A view is read accessor by accessor. -/
theorem closedEntries_eq_mapM (row : Row) (before view : String) (accessors : List Accessor) :
    closedEntries row before view accessors = accessors.mapM (closedEntry row before view) := by
  induction accessors with
  | nil => simp [closedEntries, pure, Except.pure]
  | cons accessor accessors ih =>
    cases accessor with
    | field name =>
      rw [List.mapM_cons, closedEntries, ← ih, closedEntry]
      cases row.get? (before ++ name) <;> rfl
    | nested name nested =>
      rw [List.mapM_cons, closedEntries, ← ih, closedEntry]
      cases row.get? (before ++ keyMarker ++ name) with
      | none => simp only [bind_assoc, pure_bind]
      | some key =>
        -- A null key ends the nested view; with any other it goes on.
        cases key with
        | null => rfl
        | _ => simp only [bind_assoc, pure_bind]

end Mapping

/-- The place of a column is told by a row: what was read for the column stands under its label. -/
def Spot.Told (schema : Schema) (root : Entity) (plan : JoinPlan) (joined : JoinedRow) (row : Row)
    (s : Spot) : Prop :=
  ∃ c v, SelectList.spotColumn schema root plan s = some c ∧ c.Reads joined v ∧
    row.get? s.label = some v

namespace SelectList

variable {plan : JoinPlan} {list : SelectList} {spots : List Spot}

/-- Every place of a row that tells its columns is told. -/
theorem told_of_tells (hcolumns : AreColumns schema root plan spots list.columns)
    (htells : list.Tells values row) (hlength : values.length = list.columns.length)
    (hcells : list.CellsOf values joined) : ∀ s ∈ spots, s.Told schema root plan joined row := by
  intro s hs
  obtain ⟨c, hc, hcolumn⟩ := exists_right_of_forall₂ hcolumns hs
  obtain ⟨raw, v, hcell, hread, hfound⟩ := htells.exists_cell hlength hc
  refine ⟨c, v, hcolumn, ⟨raw, hcells _ hcell, hread⟩, ?_⟩
  rw [← label_of_spotColumn hcolumn]
  exact hfound

/-- The table behind an association of the root is joined for its target. -/
theorem exists_join_of_table (hplanned : Planned schema root plan.joins) {association : String}
    {a : Association} {target : Entity} {table : Nat} (ha : root.associationNamed? association = some a)
    (htarget : schema.entity? a.target = some target)
    (htable : plan.table (.single association) = .ok table) :
    ∃ join ∈ plan.joins, join.path = .single association ∧ join.table = table ∧
      join.target = target := by
  rcases table_eq_ok htable with ⟨hempty, _⟩ | ⟨_, join, hfind, hjoinTable⟩
  · cases hempty
  · obtain ⟨hjoin, hpath⟩ := mem_of_find? hfind
    obtain ⟨b, hb, _, hjoinTarget, _⟩ := hplanned.association_of_single hjoin hpath
    obtain rfl := Option.some.inj (ha.symm.trans hb)
    exact ⟨join, hjoin, hpath, hjoinTable, Option.some.inj (hjoinTarget.symm.trans htarget)⟩

/-- The parts of the column behind an association. -/
theorem spotColumn_behind_eq_some {association field : String} {c : SelectColumn}
    (hplanned : Planned schema root plan.joins)
    (hc : spotColumn schema root plan ⟨some association, false, field⟩ = some c) :
    ∃ join ∈ plan.joins, join.path = .single association ∧
      ∃ f, join.target.fieldNamed? field = some f ∧
        c = ⟨⟨join.table, f.column⟩, Spot.label ⟨some association, false, field⟩, some f.type⟩ := by
  simp only [spotColumn, Option.bind_eq_bind, Option.bind_eq_some_iff] at hc
  obtain ⟨a, ha, target, htarget, table, htable, f, hf, hc⟩ := hc
  obtain ⟨join, hjoin, hpath, rfl, rfl⟩ :=
    exists_join_of_table hplanned ha htarget (toOption_eq_some_iff.1 htable)
  cases hc
  exact ⟨join, hjoin, hpath, f, hf, rfl⟩

/-- Every place can be read from the tables of a readable row. -/
theorem exists_reads_spot (hplanned : Planned schema root plan.joins)
    (hfollows : Follows db root start plan.joins joined) (hreadable : db.ReadableFrom root start)
    {s : Spot} {c : SelectColumn} (hc : spotColumn schema root plan s = some c) :
    ∃ v, c.Reads joined v := by
  have hroot := hfollows.readable_root hreadable
  obtain ⟨before, isKey, name⟩ := s
  cases before with
  | none =>
    cases isKey with
    | false =>
      obtain ⟨f, hf, rfl⟩ := Option.map_eq_some_iff.1 hc
      exact exists_reads_field hroot (List.mem_of_find?_eq_some hf) _
    | true =>
      obtain ⟨column, hcolumn, rfl⟩ := Option.map_eq_some_iff.1 hc
      obtain ⟨a, ha, hcolumn⟩ := Option.bind_eq_some_iff.1 hcolumn
      exact exists_reads_key hroot (List.mem_of_find?_eq_some ha) hcolumn _
  | some association =>
    cases isKey with
    | true => cases hc
    | false =>
      -- A spot behind an association has the column of its join.
      obtain ⟨join, hjoin, hpath, f, hf, rfl⟩ := spotColumn_behind_eq_some hplanned hc
      exact exists_reads_field (hfollows.readable hplanned hreadable hjoin hpath)
        (List.mem_of_find?_eq_some hf) _

end SelectList

/-- The column of a field is read as the value of the field. -/
theorem SelectColumn.Reads.holds {f : Field} {table : Nat} {label : String} {v : Value}
    {other : TableRow} (h : SelectColumn.Reads ⟨⟨table, f.column⟩, label, some f.type⟩ joined v)
    (htable : joined table = some other) : f.Holds other v := by
  obtain ⟨raw, hraw, hv⟩ := h
  simp only [JoinedRow.value, htable] at hraw
  exact Field.holds_iff.2 ⟨raw, hraw, hv⟩

namespace Spot.Told

variable {plan : JoinPlan} {name association : String}

/-- What is told of a field of the root. -/
theorem field (h : Spot.Told schema root plan joined row ⟨none, false, name⟩)
    (hfollows : Follows db root start plan.joins joined) :
    ∃ f v, root.fieldNamed? name = some f ∧ f.Holds start v ∧ row.get? name = some v := by
  obtain ⟨c, v, hc, hreads, hfound⟩ := h
  obtain ⟨f, hf, rfl⟩ := Option.map_eq_some_iff.1 hc
  refine ⟨f, v, hf, hreads.holds hfollows.atRoot, ?_⟩
  simpa [Spot.label, Spot.prefixOf] using hfound

/-- What is told of a foreign key of the root. -/
theorem key (h : Spot.Told schema root plan joined row ⟨none, true, name⟩)
    (hfollows : Follows db root start plan.joins joined) :
    ∃ a column key, root.associationNamed? name = some a ∧ a.joinColumn? = some column ∧
      (key = .null ↔ start column = .null) ∧ row.get? (keyMarker ++ name) = some key := by
  obtain ⟨c, key, hc, ⟨raw, hraw, hkey⟩, hfound⟩ := h
  obtain ⟨column, hcolumn, rfl⟩ := Option.map_eq_some_iff.1 hc
  obtain ⟨a, ha, hcolumn⟩ := Option.bind_eq_some_iff.1 hcolumn
  obtain rfl : raw = key := Except.ok.inj hkey
  have hnull := Value.ofStored_eq_null_iff hraw
  simp only [JoinedRow.value, hfollows.atRoot] at hnull
  refine ⟨a, column, raw, ha, hcolumn, hnull, ?_⟩
  simpa [Spot.label, Spot.prefixOf] using hfound

/-- What is told of a field behind an association whose row is there. -/
theorem behind (h : Spot.Told schema root plan joined row ⟨some association, false, name⟩)
    (hplanned : Planned schema root plan.joins) (hfollows : Follows db root start plan.joins joined)
    {hop : Hop} (hhop : schema.hop? root association = some hop) {other : TableRow}
    (hpartner : db.partner hop start = some other) :
    ∃ f v, hop.target.fieldNamed? name = some f ∧ f.Holds other v ∧
      row.get? (association ++ "." ++ name) = some v := by
  obtain ⟨c, v, hc, hreads, hfound⟩ := h
  obtain ⟨join, hjoin, hpath, f, hf, rfl⟩ := SelectList.spotColumn_behind_eq_some hplanned hc
  have htable := (hfollows.row_eq_partner hjoin hpath hhop).trans hpartner
  obtain rfl := Option.some.inj ((hplanned.hop?_eq hjoin hpath).symm.trans hhop)
  refine ⟨f, v, hf, hreads.holds htable, ?_⟩
  simpa [Spot.label, Spot.prefixOf] using hfound

end Spot.Told

namespace Mapping

variable {plan : JoinPlan}

/-- The view behind an association whose row is there. -/
theorem exists_closedView_behind {association : String} {view : ClosedView}
    (htold : ∀ accessor ∈ view.accessors,
      (accessor.spotBehind association).Told schema root plan joined row)
    (hplanned : Planned schema root plan.joins) (hfollows : Follows db root start plan.joins joined)
    {hop : Hop} (hhop : schema.hop? root association = some hop) {other : TableRow}
    (hpartner : db.partner hop start = some other) :
    ∃ v, closedView row (association ++ ".") view = .ok v ∧ v.name = view.name ∧
      List.Forall₂ (Accessor.ShowsBehind hop.target other) view.accessors v.entries := by
  obtain ⟨name, accessors⟩ := view
  obtain ⟨entries, hentries, hshows⟩ :
      ∃ entries, accessors.mapM (closedEntry row (association ++ ".") name) = .ok entries ∧
        List.Forall₂ (Accessor.ShowsBehind hop.target other) accessors entries :=
    exists_listMapM fun accessor haccessor => by
      have haccessorTold := htold accessor haccessor
      cases accessor with
      | field field =>
        obtain ⟨f, v, hf, hholds, hfound⟩ :=
          Spot.Told.behind haccessorTold hplanned hfollows hhop hpartner
        refine ⟨(field, .value v), ?_, field, rfl, f, v, hf, hholds, rfl⟩
        simp only [closedEntry, hfound]
      | nested deeper _ =>
        -- A key behind an association has no column in a closed view.
        obtain ⟨_, _, hc, _⟩ := haccessorTold
        cases hc
  refine ⟨.mk name entries, ?_, rfl, hshows⟩
  rw [closedView, closedEntries_eq_mapM, hentries]
  rfl

/-- **A nested view shows the database**: it is there exactly if the row of the root points at a
    row. -/
theorem exists_closedEntry_nested {name viewName : String} {view : ClosedView}
    (htold : ∀ s ∈ (Accessor.nested name view).spots, s.Told schema root plan joined row)
    (hplanned : Planned schema root plan.joins) (hfollows : Follows db root start plan.joins joined)
    (htargets : schema.Targets root) (hkeys : db.KeysLead) (hroot : root ∈ schema.entities)
    (hstart : start ∈ db.rows root.table) :
    ∃ entry, closedEntry row "" viewName (.nested name view) = .ok entry ∧
      Accessor.Shows db root start (.nested name view) entry := by
  obtain ⟨hkeyTold, hbehind⟩ := List.forall_mem_cons.1 htold
  obtain ⟨a, column, key, ha, hcolumn, hnull, hfound⟩ := Spot.Told.key hkeyTold hfollows
  have htoOne : a.isToOne = true := by simp [Association.isToOne, hcolumn]
  obtain ⟨target, targetKey, htarget, hkey⟩ :=
    htargets a (Entity.mem_of_associationNamed? ha).1 htoOne
  have hhop := Schema.hop?_eq_some ha hcolumn htarget hkey
  -- The key is null exactly if nothing is joined to the row.
  have hmissing := (hkeys.partner_eq_none_iff hroot hhop hstart).trans hnull.symm
  unfold closedEntry Accessor.Shows
  simp only [String.empty_append, hfound]
  by_cases hkeyNull : key = .null
  · refine ⟨(name, .nested none), by rw [hkeyNull], _, hhop, ?_⟩
    rw [hmissing.2 hkeyNull]
  · obtain ⟨other, hpartner⟩ := Option.ne_none_iff_exists'.1 fun hnone => hkeyNull (hmissing.1 hnone)
    obtain ⟨v, hview, hname, hentries⟩ := exists_closedView_behind
      (fun accessor haccessor => hbehind _ (List.mem_map_of_mem haccessor))
      hplanned hfollows hhop hpartner
    refine ⟨(name, .nested (some v)), ?_, _, hhop, ?_⟩
    · simp only [hview]
      cases key with
      | null => exact absurd rfl hkeyNull
      | _ => rfl
    · rw [hpartner]
      exact ⟨v, rfl, hname, hentries⟩

/-- **A closed view shows the database**: each accessor the row of the root, or the row that it
    points at. -/
theorem exists_closedView {view : ClosedView}
    (htold : ∀ s ∈ view.spots, s.Told schema root plan joined row)
    (hplanned : Planned schema root plan.joins) (hfollows : Follows db root start plan.joins joined)
    (htargets : schema.Targets root) (hkeys : db.KeysLead) (hroot : root ∈ schema.entities)
    (hstart : start ∈ db.rows root.table) :
    ∃ v, closedView row "" view = .ok v ∧ v.name = view.name ∧
      List.Forall₂ (Accessor.Shows db root start) view.accessors v.entries := by
  obtain ⟨viewName, accessors⟩ := view
  obtain ⟨entries, hentries, hshows⟩ :
      ∃ entries, accessors.mapM (closedEntry row "" viewName) = .ok entries ∧
        List.Forall₂ (Accessor.Shows db root start) accessors entries :=
    exists_listMapM fun accessor haccessor => by
      have hspots : ∀ s ∈ accessor.spots, s.Told schema root plan joined row := fun s hs =>
        htold s (List.mem_flatMap.2 ⟨accessor, haccessor, hs⟩)
      -- A field is found under its own name; a nested view is decided by the key.
      cases accessor with
      | field name =>
        obtain ⟨f, v, hf, hholds, hfound⟩ := Spot.Told.field (hspots _ List.mem_cons_self) hfollows
        refine ⟨(name, .value v), ?_, f, v, hf, hholds, rfl⟩
        simp only [closedEntry, String.empty_append, hfound]
      | nested name view =>
        exact exists_closedEntry_nested hspots hplanned hfollows htargets hkeys hroot hstart
  refine ⟨.mk viewName entries, ?_, rfl, hshows⟩
  rw [closedView, closedEntries_eq_mapM, hentries]
  rfl

end Mapping

/-- A closed view is read from each row of its query. -/
theorem exists_closedView_shows {view : ClosedView} (htarget : q.target = .closed view)
    (hselections : q.selections = []) (hnames : ∀ e ∈ q.entity :: schema.entities, e.PlainNames)
    (hs : Select.ofQuery schema q = .ok s)
    (hfollows : Follows db q.entity start s.plan.joins joined)
    (hreadable : db.ReadableFrom q.entity start) (htargets : schema.Targets q.entity)
    (hkeys : db.KeysLead) (hroot : q.entity ∈ schema.entities)
    (hstart : start ∈ db.rows q.entity.table) :
    ∃ values row v, s.list.answer joined = .ok values ∧
      Mapping.coerceRow s.list.types ⟨s.list.labels, values⟩ = .ok row ∧
      Mapping.closedView row "" view = .ok v ∧ v.name = view.name ∧
      List.Forall₂ (Accessor.Shows db q.entity start) view.accessors v.entries := by
  have hplanned := (Select.plannedFor_of_ofQuery hs).planned
  rw [List.forall_mem_cons] at hnames
  obtain ⟨_, _, _, hlist, horder, _⟩ := Select.ofQuery_eq_ok hs
  have hchosen : SelectList.ofQuery schema q = SelectList.ofClosedView schema q.entity view := by
    rw [SelectList.ofQuery, htarget]
    simp [hselections]
  rw [hchosen] at hlist
  have hcolumns := (SelectList.run_ofClosedView_eq hlist).stays (Select.run_orderTerms horder).1
  have hreads : ∀ c ∈ s.list.columns, ∃ v, c.Reads joined v := by
    intro c hc
    obtain ⟨spot, _, hspot⟩ := exists_left_of_forall₂ hcolumns hc
    exact SelectList.exists_reads_spot hplanned hfollows hreadable hspot
  obtain ⟨values, hvalues, hlength, hcells⟩ := SelectList.exists_answer hreads
  have hcellsOf : s.list.CellsOf values joined := fun cell hcell => (hcells cell hcell).1
  -- Columns with one label are one column, since plain names cannot give one label in two ways.
  have hapart := hcellsOf.apart fun c hc c' hc' => hcolumns.eq_of_label hnames.1 hnames.2 hc hc'
  obtain ⟨row, hrow, htells⟩ :=
    SelectList.coerceRow_cells hapart hlength fun cell hcell => (hcells cell hcell).2
  have htold := SelectList.told_of_tells hcolumns htells hlength hcellsOf
  obtain ⟨v, hview, hname, hentries⟩ :=
    Mapping.exists_closedView htold hplanned hfollows htargets hkeys hroot hstart
  exact ⟨values, row, v, hvalues, hrow, hview, hname, hentries⟩

end EntityQuery
