import EntityQuery.Proofs.Result.Labels

namespace EntityQuery

open JoinPlan

/-!
# Decoded records

The compiler labels the columns of a record and the mapper looks values up by label, each on its
own.  Here the two meet: what the mapper decodes is what was selected (`compile_decodes`).

* `Decodes` says what a record has to do with the cells of a row: each field has the value that was
  selected for its own column, and the links are told by keys and identifiers;
* `rootRecord_decodes` is the mapper against any select list that belongs to a plan, whatever is
  loaded.
-/

/-! ### What a record should be -/

section Specification

variable (cells : List (SelectColumn × Value)) (schema : Schema) (plan : JoinPlan)

/-- A field has the value that was selected for its own column, recovered by its type. -/
def DecodesField (table : Nat) (before : String) (f : Field) (entry : String × Value) : Prop :=
  entry.1 = f.name ∧ ∃ raw, (⟨⟨table, f.column⟩, before ++ f.name, some f.type⟩, raw) ∈ cells ∧
    f.type.coerce raw = .ok entry.2

/-- The link of an association that is not loaded: a selected key that is null leads nowhere, any
    other one is kept, and a to-many association is known by the identifier of its owner. -/
def DecodesKey (table : Nat) (before : String) (id : Value) (a : Association) (link : Link) : Prop :=
  match a.kind with
  | .toMany _ => link = .unresolved a.target id
  | .toOne column =>
    ∃ key, (⟨⟨table, column⟩, before ++ keyMarker ++ a.name, none⟩, key) ∈ cells ∧
      ((key = .null ∧ link = .loaded none) ∨ (key ≠ .null ∧ link = .unresolved a.target key))

/-- A record of an entity whose columns were selected from a table. -/
structure Decodes (table : Nat) (before : String) (e : Entity)
    (decodesLink : Value → Association → Link → Prop) (r : Record) : Prop where
  entity : r.entity = e.name
  idName : r.idName = e.idName
  fields : List.Forall₂ (DecodesField cells table before) e.fields r.fields
  links : List.Forall₂ (fun a entry => entry.1 = a.name ∧ decodesLink r.id a entry.2)
    e.associations r.links

/-- The link of an association that is loaded from the table joined for it: nothing is there exactly
    if the selected identifier is null, and otherwise the record of that table is. -/
def DecodesLoaded (a : Association) (link : Link) : Prop :=
  ∃ join ∈ plan.joins, join.path = .single a.name ∧ schema.entity? a.target = some join.target ∧
    ∃ idField key, join.target.idField? = some idField ∧
      (⟨⟨join.table, idField.column⟩, a.name ++ "." ++ idField.name, some idField.type⟩, key) ∈ cells ∧
      ((key = .null ∧ link = .loaded none) ∨
        (key ≠ .null ∧ ∃ r, link = .loaded (some r) ∧
          Decodes cells join.table (a.name ++ ".") join.target
            (DecodesKey cells join.table (a.name ++ ".")) r))

/-- The link of an association of the root. -/
def DecodesLink (loaded : Association → Bool) (id : Value) (a : Association) (link : Link) : Prop :=
  if a.isToOne && loaded a then DecodesLoaded cells schema plan a link
  else DecodesKey cells 0 "" id a link

end Specification

variable {schema : Schema} {root e : Entity} {plan : JoinPlan} {list : SelectList}
variable {values : List Value} {row : Row}

/-! ### Lookups in a row that tells its columns -/

namespace SelectList

/-- A selected column has a cell, and the row tells it. -/
theorem Tells.exists_cell (h : list.Tells values row) (hlength : values.length = list.columns.length)
    {c : SelectColumn} (hc : c ∈ list.columns) :
    ∃ raw v, (c, raw) ∈ list.cells values ∧ c.read raw = .ok v ∧ row.get? c.label = some v := by
  rw [← SelectList.map_fst_cells hlength] at hc
  obtain ⟨⟨_, raw⟩, hcell, rfl⟩ := List.mem_map.1 hc
  obtain ⟨v, hread, hfound⟩ := h _ hcell
  exact ⟨raw, v, hcell, hread, hfound⟩

/-- What a row tells of the column of a field. -/
theorem Tells.exists_field (h : list.Tells values row) (hlength : values.length = list.columns.length)
    {table : Nat} {before : String} (hcolumns : fieldColumns table before e ⊆ list.columns) {f : Field}
    (hf : f ∈ e.fields) :
    ∃ raw v, (⟨⟨table, f.column⟩, before ++ f.name, some f.type⟩, raw) ∈ list.cells values ∧
      f.type.coerce raw = .ok v ∧ row.get? (before ++ f.name) = some v :=
  h.exists_cell hlength (hcolumns (List.mem_map_of_mem hf))

/-- What a row tells of a foreign key. -/
theorem Tells.exists_key (h : list.Tells values row) (hlength : values.length = list.columns.length)
    {table : Nat} {before : String} {a : Association} {column : String}
    (hkind : a.kind = .toOne column) (hcolumns : (keyColumn table before a).toList ⊆ list.columns) :
    ∃ key, (⟨⟨table, column⟩, before ++ keyMarker ++ a.name, none⟩, key) ∈ list.cells values ∧
      row.get? (before ++ keyMarker ++ a.name) = some key := by
  have hkey : keyColumn table before a =
      some ⟨⟨table, column⟩, before ++ keyMarker ++ a.name, none⟩ := by
    simp [keyColumn, Association.joinColumn?, hkind]
  obtain ⟨raw, v, hcell, hread, hfound⟩ :=
    h.exists_cell hlength (hcolumns (by rw [hkey]; exact List.mem_singleton_self _))
  cases hread
  exact ⟨raw, hcell, hfound⟩

end SelectList

/-! ### Records without loaded associations -/

namespace Mapping

/-- A key that was selected tells the link. -/
theorem linkOfKey_decodes {cells : List (SelectColumn × Value)} {table : Nat} {before column : String}
    {a : Association} {id key : Value} (hkind : a.kind = .toOne column)
    (hcell : (⟨⟨table, column⟩, before ++ keyMarker ++ a.name, none⟩, key) ∈ cells) :
    DecodesKey cells table before id a (linkOfKey a.target (some key)) := by
  unfold DecodesKey
  rw [hkind]
  refine ⟨key, hcell, ?_⟩
  cases key with
  | null => exact .inl ⟨rfl, rfl⟩
  | _ => exact .inr ⟨nofun, rfl⟩

/-- The record of a loaded association, field by field and key by key. -/
theorem fetchedRecord_decodes (h : list.Tells values row)
    (hlength : values.length = list.columns.length) {table : Nat} {association : String}
    (hfields : SelectList.fieldColumns table (association ++ ".") e ⊆ list.columns)
    (hkeys : e.associations.filterMap (SelectList.keyColumn table (association ++ ".")) ⊆
      list.columns) :
    ∃ r, fetchedRecord association e row = .ok r ∧
      Decodes (list.cells values) table (association ++ ".") e
        (DecodesKey (list.cells values) table (association ++ ".")) r := by
  obtain ⟨fields, hread, hdecodes⟩ : ∃ fields, e.fields.mapM (fetchedField association e row) =
      .ok fields ∧ List.Forall₂ (DecodesField (list.cells values) table (association ++ "."))
        e.fields fields := by
    refine exists_listMapM fun f hf => ?_
    obtain ⟨raw, v, hcell, hcoerce, hfound⟩ := h.exists_field hlength hfields hf
    refine ⟨(f.name, v), ?_, rfl, raw, hcell, hcoerce⟩
    unfold fetchedField
    simp only [hfound, ScalarType.coerce_of_coerce hcoerce]
    rfl
  unfold fetchedRecord
  rw [hread, ok_bind]
  refine ⟨_, rfl, rfl, rfl, hdecodes, ?_⟩
  show List.Forall₂ _ e.associations (e.associations.map _)
  rw [List.forall₂_map_right_iff, List.forall₂_same]
  intro a ha
  refine ⟨rfl, ?_⟩
  -- Behind an association only keys are read, so nothing is loaded there.
  cases hkind : a.kind with
  | toMany mappedBy =>
    simp only [DecodesKey, hkind]
    rfl
  | toOne column =>
    have hcolumns : (SelectList.keyColumn table (association ++ ".") a).toList ⊆ list.columns := by
      intro c hc
      exact hkeys (List.mem_filterMap.2 ⟨a, ha, Option.mem_toList.1 hc⟩)
    obtain ⟨key, hcell, hfound⟩ := h.exists_key hlength hkind hcolumns
    simp only [hfound, hkind]
    exact linkOfKey_decodes hkind hcell

end Mapping

/-! ### Records of the root -/

/-- The join of an association of the root leads to its target. -/
theorem target_of_planned (hplanned : Planned schema root plan.joins) (hnames : root.PlainNames)
    {a : Association} (ha : a ∈ root.associations) {join : Join} (hjoin : join ∈ plan.joins)
    (hpath : join.path = .single a.name) :
    schema.entity? a.target = some join.target ∧ ∃ idField, join.target.idField? = some idField := by
  obtain ⟨b, hb, _, htarget, hid⟩ := hplanned.association_of_single hjoin hpath
  obtain rfl := Option.some.inj ((hnames.associationNamed?_eq ha).symm.trans hb)
  refine ⟨htarget, ?_⟩
  unfold Entity.idColumn at hid
  split at hid
  · rename_i idField hfield
    exact ⟨idField, hfield⟩
  · cases hid

namespace SelectList

/-- The columns of the root's fields are in the list. -/
theorem fieldColumns_subset : fieldColumns 0 "" root ⊆ (ofPlan plan root).columns :=
  List.subset_append_left _ _

/-- So are the columns that are read for an association to one record. -/
theorem associationPart_subset {a : Association} (ha : a ∈ root.associations)
    (htoOne : a.isToOne = true) : associationPart plan a ⊆ (ofPlan plan root).columns := by
  intro c hc
  exact List.mem_append_right _
    (List.mem_flatMap.2 ⟨a, List.mem_filter.2 ⟨ha, htoOne⟩, hc⟩)

/-- The associations that are read with the root are those that the plan loads. -/
theorem contains_fetched (hnames : root.PlainNames) {a : Association} (ha : a ∈ root.associations)
    (htoOne : a.isToOne = true) :
    (ofPlan plan root).fetched.contains a.name = loads plan a := by
  rw [Bool.eq_iff_iff, List.contains_iff_mem]
  unfold ofPlan
  constructor
  · intro hmem
    obtain ⟨b, hb, hname⟩ := List.mem_map.1 hmem
    obtain ⟨hb, hloads⟩ := List.mem_filter.1 hb
    have hsame := List.inj_on_of_nodup_map hnames.nodup_associations (List.mem_filter.1 hb).1 ha hname
    exact hsame ▸ hloads
  · intro hloads
    exact List.mem_map_of_mem
      (List.mem_filter.2 ⟨List.mem_filter.2 ⟨ha, htoOne⟩, hloads⟩)

end SelectList

namespace Mapping

open SelectList

/-- The link of an association that the plan loads. -/
theorem fetchedLink_decodes (hplanned : Planned schema root plan.joins) (hnames : root.PlainNames)
    (h : (ofPlan plan root).Tells values row)
    (hlength : values.length = (ofPlan plan root).columns.length) {a : Association}
    (ha : a ∈ root.associations) (htoOne : a.isToOne = true) (hloads : loads plan a = true) :
    ∃ link, fetchedLink schema row a = .ok link ∧
      DecodesLoaded ((ofPlan plan root).cells values) schema plan a link := by
  obtain ⟨⟨table, target⟩, hloaded⟩ := Option.isSome_iff_exists.1 hloads
  obtain ⟨join, hjoin, hpath, rfl, rfl⟩ := fetching?_eq_some hloaded
  obtain ⟨htarget, idField, hid⟩ := target_of_planned hplanned hnames ha hjoin hpath
  have hpart : associationPart plan a ⊆ _ := associationPart_subset ha htoOne
  unfold associationPart at hpart
  rw [hloaded] at hpart
  obtain ⟨hfields, hkeys⟩ := List.append_subset.1 hpart
  obtain ⟨hidMem, hidName⟩ := Entity.mem_of_fieldNamed? hid
  obtain ⟨key, v, hcell, hcoerce, hfound⟩ := h.exists_field hlength hfields hidMem
  -- Recovering the identifier does not change whether it is null.
  have hnull := ScalarType.coerce_eq_null_iff hcoerce
  unfold fetchedLink DecodesLoaded
  simp only [htarget]
  rw [← hidName, hfound]
  by_cases hv : v = .null
  · subst hv
    exact ⟨_, rfl, join, hjoin, hpath, rfl, idField, key, hid, hcell, .inl ⟨hnull.1 rfl, rfl⟩⟩
  · obtain ⟨r, hr, hdecodes⟩ := fetchedRecord_decodes h hlength hfields hkeys
    refine ⟨.loaded (some r), ?_, join, hjoin, hpath, rfl, idField, key, hid, hcell,
      .inr ⟨fun hkey => hv (hnull.2 hkey), r, rfl, hdecodes⟩⟩
    cases v with
    | null => exact absurd rfl hv
    | _ =>
      simp only [hr]
      rfl

/-- A link of the root is decoded from the columns that are read for its association. -/
theorem rootLink_decodes (hplanned : Planned schema root plan.joins) (hnames : root.PlainNames)
    (h : (ofPlan plan root).Tells values row)
    (hlength : values.length = (ofPlan plan root).columns.length) (id : Value) {a : Association}
    (ha : a ∈ root.associations) :
    ∃ entry, rootLink schema (ofPlan plan root).fetched row id a = .ok entry ∧ entry.1 = a.name ∧
      DecodesLink ((ofPlan plan root).cells values) schema plan (loads plan) id a entry.2 := by
  unfold rootLink DecodesLink
  cases hkind : a.kind with
  | toMany mappedBy =>
    refine ⟨_, rfl, rfl, ?_⟩
    simp [Association.isToOne, Association.joinColumn?, hkind, DecodesKey]
  | toOne column =>
    have htoOne : a.isToOne = true := by simp [Association.isToOne, Association.joinColumn?, hkind]
    dsimp only
    rw [contains_fetched hnames ha htoOne, htoOne, Bool.true_and]
    -- Loaded: the whole record is in the row. Not loaded: its key is.
    by_cases hloads : loads plan a = true
    · simp only [if_pos hloads]
      obtain ⟨link, hlink, hdecodes⟩ :=
        fetchedLink_decodes hplanned hnames h hlength ha htoOne hloads
      rw [hlink]
      exact ⟨_, rfl, rfl, hdecodes⟩
    · simp only [if_neg hloads]
      have hpart : associationPart plan a ⊆ _ := associationPart_subset ha htoOne
      unfold associationPart at hpart
      unfold loads at hloads
      rw [Option.not_isSome_iff_eq_none.1 hloads] at hpart
      obtain ⟨key, hcell, hfound⟩ := h.exists_key hlength hkind hpart
      have hlabel : "" ++ keyMarker ++ a.name = keyMarker ++ a.name := by simp
      rw [hlabel] at hfound
      rw [hfound, Option.some_or]
      exact ⟨_, rfl, rfl, linkOfKey_decodes hkind hcell⟩

/-- **The record of the root is decoded from its own columns**, whatever the plan loads. -/
theorem rootRecord_decodes (hplanned : Planned schema root plan.joins) (hnames : root.PlainNames)
    (h : (ofPlan plan root).Tells values row)
    (hlength : values.length = (ofPlan plan root).columns.length) :
    ∃ r, rootRecord schema (ofPlan plan root).fetched root row = .ok r ∧
      Decodes ((ofPlan plan root).cells values) 0 "" root
        (DecodesLink ((ofPlan plan root).cells values) schema plan (loads plan)) r := by
  obtain ⟨fields, hfields, hdecodes⟩ : ∃ fields, root.fields.mapM (rootField root row) =
      .ok fields ∧ List.Forall₂ (DecodesField ((ofPlan plan root).cells values) 0 "")
        root.fields fields := by
    refine exists_listMapM fun f hf => ?_
    obtain ⟨raw, v, hcell, hcoerce, hfound⟩ := h.exists_field hlength fieldColumns_subset hf
    rw [String.empty_append] at hfound
    refine ⟨(f.name, v), ?_, rfl, raw, hcell, hcoerce⟩
    unfold rootField
    simp only [hfound, ScalarType.coerce_of_coerce hcoerce]
    rfl
  -- The links may need the identifier, which is among the fields just read.
  obtain ⟨links, hlinks, hdecodes'⟩ := exists_listMapM fun a ha =>
    rootLink_decodes hplanned hnames h hlength (bareRecord root fields).id ha
  unfold rootRecord
  rw [hfields, ok_bind]
  dsimp only
  rw [hlinks, ok_bind]
  exact ⟨_, rfl, rfl, rfl, hdecodes, hdecodes'⟩

end Mapping

/-! ### Queries for records -/

/-- What is known of the links may be weakened. -/
theorem Decodes.imp {cells : List (SelectColumn × Value)} {table : Nat} {before : String}
    {P Q : Value → Association → Link → Prop} {r : Record} (h : Decodes cells table before e P r)
    (hlinks : ∀ a ∈ e.associations, ∀ id link, P id a link → Q id a link) :
    Decodes cells table before e Q r where
  entity := h.entity
  idName := h.idName
  fields := h.fields
  links := ((List.forall₂_and_left _ _).2 ⟨fun _ ha => ha, h.links⟩).imp
    fun a _ ⟨ha, hname, hlink⟩ => ⟨hname, hlinks a ha _ _ hlink⟩

/-- The names of a schema suit the select list of a planned entity. -/
theorem plainFor_of_planned (hnames : ∀ e ∈ root :: schema.entities, e.PlainNames)
    (hplanned : Planned schema root plan.joins) : SelectList.PlainFor plan root where
  own := hnames root List.mem_cons_self
  loaded ha hloaded := by
    obtain ⟨join, hjoin, hpath, _, rfl⟩ := fetching?_eq_some hloaded
    obtain ⟨htarget, _⟩ :=
      target_of_planned hplanned (hnames root List.mem_cons_self) ha hjoin hpath
    exact hnames _ (List.mem_cons_of_mem _ (List.mem_of_find?_eq_some htarget))

/-- **A row for a query for records is decoded**: recovered by its types it is the record that its
    cells tell.  This holds of whatever reads the row as a record. -/
theorem exists_planRecord {q : Query} {s : Select} {fetchAll : Bool}
    (hnames : ∀ e ∈ q.entity :: schema.entities, e.PlainNames)
    (hlist : SelectList.ofQuery schema q = SelectList.ofEntity schema q.entity fetchAll)
    (hs : Select.ofQuery schema q = .ok s) (hlength : values.length = s.list.columns.length)
    (hreads : ∀ cell ∈ s.list.cells values, ∃ v, cell.1.read cell.2 = .ok v) :
    ∃ row r, Mapping.coerceRow s.list.types ⟨s.list.labels, values⟩ = .ok row ∧
      Mapping.planRecord schema (s.compiled q).plan row = .ok r ∧
      Decodes (s.list.cells values) 0 "" q.entity
        (DecodesLink (s.list.cells values) schema s.plan fun a =>
          fetchAll || q.fetches (.single a.name)) r := by
  have hplanned := Select.plannedFor_of_ofQuery hs
  have hplain := plainFor_of_planned hnames hplanned.planned
  obtain ⟨hofPlan, hloads⟩ := Select.list_eq_ofPlan hplain.own.nodup_associations hlist hs
  have hlabels := SelectList.nodup_labels hplain
  rw [← hofPlan] at hlabels
  obtain ⟨row, hrow, htells⟩ :=
    SelectList.coerceRow_cells (SelectList.apart_of_nodup hlabels hlength) hlength hreads
  -- The list is the one of the final plan, whatever was joined while it was written.
  rw [hofPlan] at htells hlength
  obtain ⟨r, hr, hdecodes⟩ := Mapping.rootRecord_decodes hplanned.planned hplain.own htells hlength
  rw [← hofPlan] at hr hdecodes
  refine ⟨row, r, hrow, ?_, hdecodes.imp fun a ha id link hlink => ?_⟩
  · show Mapping.rootRecord schema s.list.fetched s.root row = .ok r
    rw [hplanned.root]
    exact hr
  · unfold DecodesLink at hlink ⊢
    cases htoOne : a.isToOne with
    | false => rwa [htoOne] at hlink
    | true => rwa [htoOne, hloads a ha htoOne] at hlink

/-- **The mapper decodes what the compiler selects.**  Where the names of each entity are told apart
    and hold no punctuation of labels, the select list of a query for records uses no label twice,
    and every answer with its labels, a value for each column and values of the known types is
    mapped: each record has the values that were selected for its own columns, and its links are
    told by the selected identifiers and keys.  The associations that the query fetches are loaded,
    and no others are. -/
theorem compile_decodes {q : Query} {c : Compiled}
    (hnames : ∀ e ∈ q.entity :: schema.entities, e.PlainNames) (htarget : q.target = .entity)
    (hc : q.compile schema = .ok c) :
    ∃ s, Select.ofQuery schema q = .ok s ∧ c = s.compiled q ∧ s.list.labels.Nodup ∧
      ∀ rows : RowSet, rows.columns = s.list.labels →
        (∀ values ∈ rows.rows, values.length = s.list.columns.length ∧
          ∀ cell ∈ s.list.cells values, ∃ v, cell.1.read cell.2 = .ok v) →
        ∃ records, Mapping.mapRows schema c.plan rows = .ok (records.map .record) ∧
          List.Forall₂ (fun values r => Decodes (s.list.cells values) 0 "" q.entity
            (DecodesLink (s.list.cells values) schema s.plan fun a => q.fetches (.single a.name)) r)
            rows.rows records := by
  unfold Query.compile at hc
  obtain ⟨s, hs, hcompiled⟩ := bind_eq_ok_iff.1 hc
  obtain rfl := pure_eq_ok_iff.1 hcompiled
  have hlist : SelectList.ofQuery schema q = SelectList.ofEntity schema q.entity false := by
    rw [SelectList.ofQuery, htarget]
  have hplain := plainFor_of_planned hnames (Select.plannedFor_of_ofQuery hs).planned
  obtain ⟨hofPlan, _⟩ := Select.list_eq_ofPlan hplain.own.nodup_associations hlist hs
  refine ⟨s, hs, rfl, hofPlan ▸ SelectList.nodup_labels hplain, fun rows hcolumns hrows => ?_⟩
  have hplanTarget : (s.compiled q).plan.target = .entity := htarget
  -- The rows are read one by one, and each is decoded on its own.
  obtain ⟨records, hrecords⟩ := exists_forall₂ fun values hvalues => by
    obtain ⟨hlength, hreads⟩ := hrows values hvalues
    obtain ⟨row, r, hrow, hr, hdecodes⟩ := exists_planRecord hnames hlist hs hlength hreads
    have hread : Mapping.readRow schema (s.compiled q).plan ⟨s.list.labels, values⟩ =
        .ok (.record r) := by
      show (Mapping.coerceRow s.list.types _ >>= _) = _
      rw [hrow, ok_bind, Mapping.mapRow, hplanTarget]
      dsimp only
      rw [hr]
      rfl
    exact ⟨r, And.intro hread hdecodes⟩
  refine ⟨records, ?_, hrecords.imp fun _ _ => And.right⟩
  rw [Mapping.mapRows_eq_ok_iff, Mapping.checkColumns, hplanTarget]
  refine ⟨rfl, ?_⟩
  rw [RowSet.toRows, hcolumns, List.forall₂_map_left_iff, List.forall₂_map_right_iff]
  exact hrecords.imp fun _ _ => And.left

/-- The members with their teams. -/
def Sample.membersWithTeams : Query where
  entity := Sample.member
  shape := .list
  joins := [⟨⟨["team"]⟩, .left, true⟩]

/-- A member of a team that is no part of another one, and a member without a team. -/
def Sample.membersWithTeamsRows : RowSet :=
  ⟨["id", "age", "team.id", "team.@parent"],
    [[.integer 1, .integer 30, .integer 7, .null], [.integer 2, .null, .null, .null]]⟩

/-- Two members with their teams, one of whom has none. -/
theorem compile_decodes_membersWithTeams :
    ∃ c s, Sample.membersWithTeams.compile Sample.league = .ok c ∧
      Select.ofQuery Sample.league Sample.membersWithTeams = .ok s ∧
      Sample.membersWithTeamsRows.columns = s.list.labels ∧
      ∃ records, Mapping.mapRows Sample.league c.plan Sample.membersWithTeamsRows =
          .ok (records.map .record) ∧
        List.Forall₂ (fun values r => Decodes (s.list.cells values) 0 "" Sample.member
          (DecodesLink (s.list.cells values) Sample.league s.plan fun a =>
            Sample.membersWithTeams.fetches (.single a.name)) r)
          Sample.membersWithTeamsRows.rows records := by
  have hnames : ∀ e ∈ Sample.membersWithTeams.entity :: Sample.league.entities, e.PlainNames := by
    decide
  have hcompiles : ∃ c, Sample.membersWithTeams.compile Sample.league = .ok c := ⟨_, rfl⟩
  obtain ⟨c, hc⟩ := hcompiles
  obtain ⟨s, hs, hcompiled, _, hmaps⟩ := compile_decodes hnames rfl hc
  -- Four columns: two of the member and two of the team behind it.
  have hselect : ∃ s', Select.ofQuery Sample.league Sample.membersWithTeams = .ok s' ∧
      s'.list.columns = [⟨⟨0, "member_id"⟩, "id", some .integer⟩, ⟨⟨0, "age"⟩, "age", some .integer⟩,
        ⟨⟨1, "team_id"⟩, "team.id", some .integer⟩, ⟨⟨1, "parent_id"⟩, "team.@parent", none⟩] :=
    ⟨_, rfl, rfl⟩
  obtain ⟨s', hs', hlist⟩ := hselect
  obtain rfl := Except.ok.inj (hs.symm.trans hs')
  have hlabels : Sample.membersWithTeamsRows.columns = s.list.labels := by
    rw [SelectList.labels, hlist]
    rfl
  refine ⟨c, s, hc, hs, hlabels, hmaps _ hlabels ?_⟩
  unfold SelectList.cells
  rw [hlist]
  simp only [Sample.membersWithTeamsRows, List.forall_mem_cons, List.zip_cons_cons, List.zip_nil_left,
    List.not_mem_nil, false_imp_iff, implies_true, and_true]
  exact ⟨⟨rfl, ⟨_, rfl⟩, ⟨_, rfl⟩, ⟨_, rfl⟩, ⟨_, rfl⟩⟩, rfl, ⟨_, rfl⟩, ⟨_, rfl⟩, ⟨_, rfl⟩, ⟨_, rfl⟩⟩

end EntityQuery
