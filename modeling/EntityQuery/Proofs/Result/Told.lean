import EntityQuery.Proofs.Result.Loaded
import EntityQuery.Proofs.Schema.Joinable
import EntityQuery.Proofs.Views.Shown
import EntityQuery.Sql.Native

namespace EntityQuery

open JoinPlan

/-!
# What links tell

What the link of an association says about the row that its record was read from: that it leads
nowhere, or which key it has.  Records come from three places, and each link of them tells the truth
about its row as far as a key was read:

* `Record.Selected`: the records of a compiled query and those that are loaded with them, where the
  compiler sees to it that every key is read (`Record.Selected.tells`);
* `Record.Native`: the records of rows that were asked for in the store's own words, where a key is
  known if one of its columns is there (`Record.Native.tells`), and where nothing is known of it
  otherwise (`Record.Native.link?_of_unread`).
-/

variable {schema : Schema} {db : Database schema} {e : Entity} {start : TableRow} {name : String}

/-! ### Associations that lead nowhere -/

namespace Database

/-- An association of a row leads nowhere: its foreign key is null, or names no row. -/
def LeadsNowhere (db : Database schema) (e : Entity) (start : TableRow) (name : String) : Prop :=
  ∃ hop, schema.hop? e name = some hop ∧ (start hop.foreignKey = .null ∨
    ∀ other ∈ db.rows hop.target.table, ¬ (other hop.key).Equals (start hop.foreignKey))

/-- A row without a partner leads nowhere. -/
theorem leadsNowhere_of_partner {hop : Hop} (hhop : schema.hop? e name = some hop)
    (h : db.partner hop start = none) : db.LeadsNowhere e start name := by
  refine ⟨hop, hhop, .inr fun other hother hequals => ?_⟩
  have hno := List.find?_eq_none.1 h other hother
  exact hno (decide_eq_true hequals)

end Database

/-- In a checked schema every to-one association of a registered entity can be followed. -/
theorem Schema.Checked.exists_hop? (h : schema.Checked) (he : e ∈ schema.entities) {a : Association}
    (ha : e.associationNamed? name = some a) {column : String} (hkind : a.kind = .toOne column) :
    ∃ hop, schema.hop? e name = some hop ∧ hop.foreignKey = column ∧
      schema.entity? a.target = some hop.target ∧ hop.target.idColumn = .ok hop.key := by
  have hforeignKey : a.joinColumn? = some column := by simp [Association.joinColumn?, hkind]
  have htoOne : a.isToOne = true := by simp [Association.isToOne, hforeignKey]
  obtain ⟨target, key, htarget, hkey⟩ :=
    h.targets e he a (Entity.mem_of_associationNamed? ha).1 htoOne
  exact ⟨_, Schema.hop?_eq_some ha hforeignKey htarget hkey, rfl, htarget, hkey⟩

/-! ### Links that tell the truth -/

/-- What a link says of an association of a row is so: where it is loaded without a record, the
    association leads nowhere; where it is not loaded, it has the key that is stored. -/
def Link.Tells (db : Database schema) (e : Entity) (start : TableRow) (name : String) : Link → Prop
  | .loaded none => db.LeadsNowhere e start name
  | .unresolved _ key => ∀ hop, schema.hop? e name = some hop →
    key ≠ .null ∧ Value.ofStored (start hop.foreignKey) = .ok key
  | _ => True

/-- The link of an association of a record tells the truth about a row. -/
def Record.Tells (db : Database schema) (e : Entity) (start : TableRow) (name : String) (r : Record) :
    Prop :=
  ∃ link, r.link? name = some link ∧ link.Tells db e start name

namespace Mapping

/-- A key that was read tells the link: a null key leads nowhere, any other one is kept. -/
theorem tells_linkOfKey {hop : Hop} (hhop : schema.hop? e name = some hop) {key : Value}
    (hkey : Value.ofStored (start hop.foreignKey) = .ok key) (target : String) :
    (linkOfKey target (some key)).Tells db e start name := by
  by_cases hnull : key = .null
  · subst hnull
    exact ⟨hop, hhop, .inl ((Value.ofStored_eq_null_iff hkey).1 rfl)⟩
  · have hkept : linkOfKey target (some key) = .unresolved target key := by
      cases key with
      | null => exact absurd rfl hnull
      | _ => rfl
    rw [hkept]
    intro hop' hhop'
    obtain rfl := Option.some.inj (hhop.symm.trans hhop')
    exact ⟨hnull, hkey⟩

/-- No to-many association can be followed to one row. -/
theorem hop?_of_toMany {a : Association} {mappedBy : String} (ha : e.associationNamed? name = some a)
    (hkind : a.kind = .toMany mappedBy) : schema.hop? e name = none := by
  simp [Schema.hop?, ha, Association.joinColumn?, hkind]

end Mapping

/-! ### Records of compiled queries -/

/-- The record that a compiled query reads from a row of its entity, or one that is loaded with such
    a record from the row that this one points at. -/
inductive Record.Selected (db : Database schema) : Entity → TableRow → Record → Prop where
  | root {q : Query} {s : Select} {M : Meaning} {joined : JoinedRow} {start : TableRow}
    {values : List Value} {r : Record}
    (registered : schema.entity? q.entity.name = some q.entity) (records : q.target = .entity)
    (selects : Select.ofQuery schema q = .ok s) (row : joined ∈ s.rows M db s.plan)
    (first : joined 0 = some start) (answers : s.list.answer joined = .ok values)
    (reads : Mapping.readRow schema (s.compiled q).plan ⟨s.list.labels, values⟩ = .ok (.record r)) :
    Selected db q.entity start r
  | behind {e : Entity} {start other : TableRow} {r found : Record} {name : String} {hop : Hop}
    (holder : Selected db e start r) (leads : schema.hop? e name = some hop)
    (loaded : r.link? name = some (.loaded (some found)))
    (points : db.partner hop start = some other) : Selected db hop.target other found

/-- The rows of a statement follow the paths of its plan. -/
theorem Select.PlannedFor.follows_of_mem_rows {q : Query} {s : Select} {M : Meaning}
    {joined : JoinedRow} (h : PlannedFor schema q s) (hjoined : joined ∈ s.rows M db s.plan)
    (hstart : joined 0 = some start) : Follows db q.entity start s.plan.joins joined := by
  rw [rows_eq_flatMap] at hjoined
  obtain ⟨first, _, hjoined⟩ := List.mem_flatMap.1 hjoined
  by_cases hkeeps : Keeps M db q s first
  · obtain ⟨only, honly, hfollows⟩ := h.rowsFrom_of_keeps h.decides hkeeps
    rw [honly, List.mem_singleton] at hjoined
    subst hjoined
    obtain rfl := Option.some.inj (hfollows.atRoot.symm.trans hstart)
    exact hfollows
  · rw [h.rowsFrom_of_not_keeps h.decides hkeeps] at hjoined
    cases hjoined

namespace SelectList

variable {list : SelectList} {joined : JoinedRow} {values : List Value} {row : Row}

/-- An answer has a cell for each column, with what is stored there. -/
theorem cellsOf_of_answer (h : list.answer joined = .ok values) :
    values.length = list.columns.length ∧ list.CellsOf values joined := by
  have hcells := listMapM_eq_ok_iff.1 h
  exact ⟨hcells.length_eq.symm, fun cell hcell => (List.forall₂_iff_zip.1 hcells).2 hcell⟩

/-- Where a row was recovered, each of its cells was. -/
theorem reads_of_coerceRow (hlabels : list.labels.Nodup)
    (hrow : Mapping.coerceRow list.types ⟨list.labels, values⟩ = .ok row) :
    ∀ cell ∈ list.cells values, ∃ v, cell.1.read cell.2 = .ok v := by
  -- No label stands twice, so each cell is read by the type of its own column.
  have htype : ∀ cell ∈ list.cells values, list.types.lookup cell.1.label = cell.1.type := by
    intro cell hcell
    have hmem := (List.of_mem_zip hcell).1
    exact lookup_types hmem fun c' hc' hlabel =>
      List.inj_on_of_nodup_map hlabels hc' hmem hlabel
  intro cell hcell
  unfold Mapping.coerceRow at hrow
  split at hrow
  · rename_i hempty
    rw [List.isEmpty_iff] at hempty
    have huntyped := htype cell hcell
    rw [hempty] at huntyped
    exact ⟨cell.2, by simp [SelectColumn.read, ← huntyped]⟩
  · obtain ⟨vs, hvs, _⟩ := bind_eq_ok_iff.1 hrow
    have hpair : (cell.1.label, cell.2) ∈ Row.pairs ⟨list.labels, values⟩ := by
      have hpairs : Row.pairs ⟨list.labels, values⟩ =
          (list.cells values).map fun cell => (cell.1.label, cell.2) := by
        simp [Row.pairs, labels, cells, List.zip_map_left, Prod.map]
      rw [hpairs]
      exact List.mem_map_of_mem hcell
    obtain ⟨v, _, hv⟩ := exists_right_of_forall₂ (listMapM_eq_ok_iff.1 hvs) hpair
    refine ⟨v, ?_⟩
    dsimp only at hv
    rw [htype cell hcell] at hv
    exact hv

end SelectList

section Cells

variable {list : SelectList} {joined : JoinedRow} {values : List Value} {table : Nat} {before : String}
variable {a : Association} {id : Value} {link : Link}

/-- The link of an association that is not loaded tells what was stored in the row of its table. -/
theorem DecodesKey.tells (h : DecodesKey (list.cells values) table before id a link)
    (hschema : schema.Checked) (he : e ∈ schema.entities) (ha : e.associationNamed? name = some a)
    (hcells : list.CellsOf values joined) (htable : joined table = some start) :
    link.Tells db e start name := by
  unfold DecodesKey at h
  split at h
  · rename_i mappedBy hkind
    subst h
    intro hop hhop
    rw [Mapping.hop?_of_toMany ha hkind] at hhop
    cases hhop
  · rename_i column hkind
    obtain ⟨hop, hhop, rfl, _⟩ := hschema.exists_hop? he ha hkind
    obtain ⟨key, hcell, hlink⟩ := h
    have hstored : Value.ofStored (start hop.foreignKey) = .ok key := by
      have hvalue := hcells _ hcell
      simp only [JoinedRow.value, htable] at hvalue
      exact hvalue
    -- A key that is null tells that nothing is there; any other one is what is stored.
    rcases hlink with ⟨rfl, rfl⟩ | ⟨hkey, rfl⟩
    · exact Mapping.tells_linkOfKey hhop hstored a.target
    · intro hop' hhop'
      obtain rfl := Option.some.inj (hhop.symm.trans hhop')
      exact ⟨hkey, hstored⟩

/-- A link that is known by its key holds no record. -/
theorem DecodesKey.ne_loaded {cells : List (SelectColumn × Value)}
    (h : DecodesKey cells table before id a link) (found : Record) :
    link ≠ .loaded (some found) := by
  unfold DecodesKey at h
  split at h
  · subst h
    exact nofun
  · obtain ⟨key, _, ⟨_, rfl⟩ | ⟨_, rfl⟩⟩ := h
    · exact nofun
    · exact nofun

end Cells

/-- A record is that of a row of an entity: all its links tell the truth. -/
structure Record.Told (db : Database schema) (e : Entity) (start : TableRow) (r : Record) : Prop where
  registered : schema.entity? e.name = some e
  entity : r.entity = e.name
  tells : ∀ name a, e.associationNamed? name = some a → r.Tells db e start name

section Decoded

variable {cells : List (SelectColumn × Value)} {table : Nat} {before : String} {r : Record}
variable {decodesLink : Value → Association → Link → Prop}

/-- The link of a decoded record, found by its name. -/
theorem Decodes.exists_link? (h : Decodes cells table before e decodesLink r) {a : Association}
    (ha : e.associationNamed? name = some a) :
    ∃ link, decodesLink r.id a link ∧ r.link? name = some link := by
  obtain ⟨entry, ⟨_, hlink⟩, hfound⟩ :=
    Mapping.exists_lookup_of_find? Association.name And.left h.links ha
  exact ⟨entry.2, hlink, hfound⟩

/-- Each link of a decoded record is that of an association. -/
theorem Decodes.exists_association (h : Decodes cells table before e decodesLink r) {link : Link}
    (hlink : r.link? name = some link) : ∃ a, decodesLink r.id a link := by
  obtain ⟨l₁, l₂, hlinks, _⟩ := List.lookup_eq_some_iff.1 hlink
  have hmem : (name, link) ∈ r.links := by
    rw [hlinks]
    exact List.mem_append_right _ (.head _)
  obtain ⟨a, _, _, ha⟩ := exists_left_of_forall₂ h.links hmem
  exact ⟨a, ha⟩

/-- Where each link tells the truth, the record does. -/
theorem Decodes.told (h : Decodes cells table before e decodesLink r)
    (hregistered : schema.entity? e.name = some e)
    (hlinks : ∀ name a id link, e.associationNamed? name = some a → decodesLink id a link →
      link.Tells db e start name) : r.Told db e start where
  registered := hregistered
  entity := h.entity
  tells name a ha := by
    obtain ⟨link, hlink, hfound⟩ := h.exists_link? ha
    exact ⟨link, hfound, hlinks name a _ link ha hlink⟩

end Decoded

/-- What is loaded with a record is the record of the row that its row points at, and holds no
    further record. -/
def Record.HoldsTold (db : Database schema) (e : Entity) (start : TableRow) (r : Record) : Prop :=
  ∀ name hop other found, schema.hop? e name = some hop →
    r.link? name = some (.loaded (some found)) → db.partner hop start = some other →
    found.Told db hop.target other ∧ ∀ next deeper, found.link? next ≠ some (.loaded (some deeper))

section Root

variable {q : Query} {s : Select} {joined : JoinedRow} {values : List Value} {r : Record}
variable {loaded : Association → Bool}

/-- The links of a record that was decoded from a row of the root. -/
theorem DecodesLink.tells {a : Association} {id : Value} {link : Link}
    (h : DecodesLink (s.list.cells values) schema s.plan loaded id a link)
    (hschema : schema.Checked) (he : q.entity ∈ schema.entities) (hs : Select.PlannedFor schema q s)
    (ha : q.entity.associationNamed? name = some a) (hcells : s.list.CellsOf values joined)
    (hfollows : Follows db q.entity start s.plan.joins joined) :
    link.Tells db q.entity start name := by
  unfold DecodesLink at h
  split at h
  · obtain ⟨join, hjoin, hpath, _, idField, key, hid, hcell, hlink⟩ := h
    obtain rfl := (Entity.mem_of_associationNamed? ha).2
    have hhop := hs.planned.hop?_eq hjoin hpath
    rcases hlink with ⟨rfl, rfl⟩ | ⟨_, found, rfl, _⟩
    · -- The identifier that was read is null, so nothing was joined to the row.
      refine Database.leadsNowhere_of_partner hhop ?_
      rw [← hfollows.id_eq_null_iff hs.planned hjoin hpath hhop hid]
      exact (Value.ofStored_eq_null_iff (hcells _ hcell)).1 rfl
    · trivial
  -- Without a join the link is made of the key in the root's own row.
  · exact h.tells hschema he ha hcells hfollows.atRoot

/-- What a record of the root holds was read from the table joined for it. -/
theorem Decodes.holdsTold
    (h : Decodes (s.list.cells values) 0 "" q.entity
      (DecodesLink (s.list.cells values) schema s.plan loaded) r)
    (hschema : schema.Checked) (hs : Select.PlannedFor schema q s)
    (hcells : s.list.CellsOf values joined)
    (hfollows : Follows db q.entity start s.plan.joins joined) : r.HoldsTold db q.entity start := by
  intro name hop other found hhop hloaded hpartner
  obtain ⟨a, ha⟩ : ∃ a, q.entity.associationNamed? name = some a := by
    simp only [Schema.hop?, Option.bind_eq_bind, Option.bind_eq_some_iff] at hhop
    obtain ⟨a, ha, _⟩ := hhop
    exact ⟨a, ha⟩
  obtain ⟨link, hlink, hfound⟩ := h.exists_link? ha
  obtain rfl := Option.some.inj (hloaded.symm.trans hfound)
  unfold DecodesLink at hlink
  split at hlink
  · obtain ⟨join, hjoin, hpath, htarget, _, _, _, _, ⟨_, hnone⟩ | ⟨_, _, hsome, hdecodes⟩⟩ := hlink
    · cases hnone
    cases hsome
    obtain rfl := (Entity.mem_of_associationNamed? ha).2
    obtain rfl := Option.some.inj ((hs.planned.hop?_eq hjoin hpath).symm.trans hhop)
    -- The joined row is the partner, so what was decoded from it is told of that row.
    have htable := (hfollows.row_eq_partner hjoin hpath hhop).trans hpartner
    have hmem := Schema.mem_entities_of_entity? htarget
    refine ⟨hdecodes.told (Schema.entity?_name htarget) fun next b id link hb hkey =>
      hkey.tells hschema hmem hb hcells htable, fun next deeper hdeeper => ?_⟩
    obtain ⟨b, hkey⟩ := hdecodes.exists_association hdeeper
    exact hkey.ne_loaded deeper rfl
  · exact absurd rfl (hlink.ne_loaded found)

end Root

/-- **Selected records tell the truth**, and so do those that they hold. -/
theorem Record.Selected.told (hschema : schema.Checked)
    (hnames : ∀ e ∈ schema.entities, e.PlainNames) {r : Record} (h : r.Selected db e start) :
    r.Told db e start ∧ r.HoldsTold db e start := by
  induction h with
  | @root q s M joined start values r registered records selects row first answers reads =>
    have hplanned := Select.plannedFor_of_ofQuery selects
    have hmem := Schema.mem_entities_of_entity? registered
    have hroot := hnames q.entity hmem
    have hall : ∀ e ∈ q.entity :: schema.entities, e.PlainNames :=
      List.forall_mem_cons.2 ⟨hroot, hnames⟩
    have hlist : SelectList.ofQuery schema q = SelectList.ofEntity schema q.entity false := by
      rw [SelectList.ofQuery, records]
    have hfollows := hplanned.follows_of_mem_rows row first
    obtain ⟨hlength, hcells⟩ := SelectList.cellsOf_of_answer answers
    have hlabels : s.list.labels.Nodup := by
      obtain ⟨hofPlan, _⟩ := Select.list_eq_ofPlan hroot.nodup_associations hlist selects
      exact hofPlan ▸ SelectList.nodup_labels (plainFor_of_planned hall hplanned.planned)
    -- The row was recovered, so it is the row that the cells tell, and the record is decoded from it.
    obtain ⟨row', hrow, hreads⟩ := bind_eq_ok_iff.1 reads
    obtain ⟨row'', r', hrow', hr', hdecodes⟩ := exists_planRecord hall hlist selects hlength
      (SelectList.reads_of_coerceRow hlabels hrow)
    obtain rfl := Except.ok.inj (hrow.symm.trans hrow')
    have hplanTarget : (s.compiled q).plan.target = .entity := records
    rw [Mapping.mapRow, hplanTarget] at hreads
    obtain ⟨_, hplan, hreads⟩ := bind_eq_ok_iff.1 hreads
    cases hreads
    obtain rfl := Except.ok.inj (hplan.symm.trans hr')
    refine ⟨hdecodes.told registered fun name a id link ha hlink => ?_, ?_⟩
    · exact hlink.tells hschema hmem hplanned ha hcells hfollows
    · exact hdecodes.holdsTold hschema hplanned hcells hfollows
  | behind holder leads loaded points ih =>
    obtain ⟨htold, hdeepest⟩ := ih.2 _ _ _ _ leads loaded points
    exact ⟨htold, fun next _ _ deeper _ hdeeper _ => absurd hdeeper (hdeepest next deeper)⟩

/-! ### Records of rows in the store's own words -/

/-- Where the key of a to-one association of the root is looked for in a row. -/
def Mapping.keyOf (row : Row) (a : Association) (column : String) : Option Value :=
  (row.get? (keyMarker ++ a.name)).or (row.get? column)

/-- A record that was read from a row of an entity in answer to text for the store.  The text is
    honest: what it gives for a foreign key is what is stored there. -/
structure Record.Native (db : Database schema) (e : Entity) (start : TableRow) (row : Row)
    (r : Record) : Prop where
  registered : schema.entity? e.name = some e
  stored : start ∈ db.rows e.table
  reads : ∃ (q : NativeQuery) (c : Compiled), q.entity = some e ∧ q.target = .entity ∧
    q.compile = .ok c ∧ Mapping.readRow schema c.plan row = .ok (.record r)
  honest : ∀ a ∈ e.associations, ∀ column, a.kind = .toOne column →
    ∀ key ∈ Mapping.keyOf row a column, Value.ofStored (start column) = .ok key

namespace Record.Native

variable {row : Row} {r : Record}

/-- No types are known of such a row, and no association is loaded with its record. -/
theorem rootRecord_eq (h : r.Native db e start row) :
    Mapping.rootRecord schema [] e row = .ok r := by
  obtain ⟨q, c, hentity, htarget, hcompile, hread⟩ := h.reads
  unfold NativeQuery.compile at hcompile
  split at hcompile
  · cases hcompile
  split at hcompile
  · cases hcompile
  cases hcompile
  obtain ⟨row', hrow, hread⟩ := bind_eq_ok_iff.1 hread
  -- A native query has no types, so the row is read as it stands.
  cases hrow
  rw [Mapping.mapRow] at hread
  simp only [htarget] at hread
  obtain ⟨r', hr', hread⟩ := bind_eq_ok_iff.1 hread
  cases hread
  simpa only [Mapping.planRecord, hentity] using hr'

/-- The link of an association of such a record. -/
theorem exists_rootLink (h : r.Native db e start row) {a : Association}
    (ha : e.associationNamed? name = some a) :
    ∃ id entry, Mapping.rootLink schema [] row id a = .ok entry ∧ r.link? name = some entry.2 := by
  have hroot := h.rootRecord_eq
  unfold Mapping.rootRecord at hroot
  obtain ⟨fields, _, hroot⟩ := bind_eq_ok_iff.1 hroot
  obtain ⟨links, hlinks, hroot⟩ := bind_eq_ok_iff.1 hroot
  cases hroot
  obtain ⟨entry, hentry, hfound⟩ := Mapping.exists_lookup_of_find? Association.name
    Mapping.rootLink_fst (listMapM_eq_ok_iff.1 hlinks) ha
  exact ⟨_, entry, hentry, hfound⟩

/-- An association to one record is read as the link of its key. -/
theorem link?_of_toOne (h : r.Native db e start row) {a : Association} {column : String}
    (ha : e.associationNamed? name = some a) (hkind : a.kind = .toOne column) :
    r.link? name = some (Mapping.linkOfKey a.target (Mapping.keyOf row a column)) := by
  obtain ⟨id, entry, hentry, hfound⟩ := h.exists_rootLink ha
  simp only [Mapping.rootLink, hkind, List.contains_nil, Bool.false_eq_true, if_false] at hentry
  cases hentry
  exact hfound

/-- An association to many is never resolved with the row. -/
theorem link?_of_toMany (h : r.Native db e start row) {a : Association} {mappedBy : String}
    (ha : e.associationNamed? name = some a) (hkind : a.kind = .toMany mappedBy) :
    ∃ id, r.link? name = some (.unresolved a.target id) := by
  obtain ⟨id, entry, hentry, hfound⟩ := h.exists_rootLink ha
  simp only [Mapping.rootLink, hkind] at hentry
  cases hentry
  exact ⟨id, hfound⟩

/-- The record is one of the entity. -/
theorem entity_eq (h : r.Native db e start row) : r.entity = e.name := by
  have hroot := h.rootRecord_eq
  unfold Mapping.rootRecord at hroot
  obtain ⟨_, _, hroot⟩ := bind_eq_ok_iff.1 hroot
  obtain ⟨_, _, hroot⟩ := bind_eq_ok_iff.1 hroot
  cases hroot
  rfl

/-- An association tells the truth, if its key was read where it has one. -/
theorem tells (h : r.Native db e start row) (hschema : schema.Checked) {a : Association}
    (ha : e.associationNamed? name = some a)
    (hread : ∀ column, a.kind = .toOne column → (Mapping.keyOf row a column).isSome = true) :
    r.Tells db e start name := by
  -- An association to many tells nothing of one row, and the other has a key by assumption.
  cases hkind : a.kind with
  | toMany mappedBy =>
    obtain ⟨id, hlink⟩ := h.link?_of_toMany ha hkind
    refine ⟨_, hlink, fun hop hhop => ?_⟩
    rw [Mapping.hop?_of_toMany ha hkind] at hhop
    cases hhop
  | toOne column =>
    obtain ⟨key, hkey⟩ := Option.isSome_iff_exists.1 (hread column hkind)
    obtain ⟨hop, hhop, rfl, _⟩ :=
      hschema.exists_hop? (Schema.mem_entities_of_entity? h.registered) ha hkind
    have hstored := h.honest a (Entity.mem_of_associationNamed? ha).1 _ hkind key hkey
    refine ⟨_, h.link?_of_toOne ha hkind, ?_⟩
    rw [hkey]
    exact Mapping.tells_linkOfKey hhop hstored a.target

/-- Of a key that was not read nothing is known; its link looks like that of a null key. -/
theorem link?_of_unread (h : r.Native db e start row) {a : Association} {column : String}
    (ha : e.associationNamed? name = some a) (hkind : a.kind = .toOne column)
    (hunread : Mapping.keyOf row a column = none) :
    r.link? name = some (.unresolved a.target .null) := by
  rw [h.link?_of_toOne ha hkind, hunread]
  rfl

end Record.Native

end EntityQuery
