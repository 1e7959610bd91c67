import EntityQuery.Proofs.Statement.Compared

namespace EntityQuery

open JoinPlan

/-!
# Names without question marks

The text of a statement is made of fixed words, of numbers, and of names: those of tables, columns
and properties, and the labels that a query chooses.  Where no question mark stands in a name, none
stands in the texts of lists and orders made of them (`Select.isMarkFree_listText`,
`Select.isMarkFree_orderText`).
-/

/-- No question mark stands in a name of an entity. -/
structure Entity.MarkFree (e : Entity) : Prop where
  table : IsMarkFree e.table
  fields : ∀ f ∈ e.fields, IsMarkFree f.name ∧ IsMarkFree f.column
  associations : ∀ a ∈ e.associations, IsMarkFree a.name ∧
    ∀ key, a.joinColumn? = some key → IsMarkFree key

instance (e : Entity) : Decidable e.MarkFree :=
  decidable_of_iff (IsMarkFree e.table ∧ (∀ f ∈ e.fields, IsMarkFree f.name ∧ IsMarkFree f.column) ∧
      ∀ a ∈ e.associations, IsMarkFree a.name ∧ ∀ key ∈ a.joinColumn?, IsMarkFree key)
    ⟨fun ⟨htable, hfields, hassociations⟩ => ⟨htable, hfields, hassociations⟩,
      fun ⟨htable, hfields, hassociations⟩ => ⟨htable, hfields, hassociations⟩⟩

/-- No question mark stands in a name of the schema or of the root of a statement. -/
structure Schema.MarkFree (schema : Schema) (root : Entity) : Prop where
  entities : ∀ e ∈ schema.entities, e.MarkFree
  root : root.MarkFree

variable {schema : Schema} {root : Entity} {plan plan' : JoinPlan} {path : Path}

/-! ### Paths and columns -/

/-- Every entity of a schema without question marks has none. -/
theorem Schema.MarkFree.of_entity? (h : schema.MarkFree root) {name : String} {e : Entity}
    (he : schema.entity? name = some e) : e.MarkFree :=
  h.entities e (List.mem_of_find?_eq_some he)

/-- What a walk leads to has names without question marks, and so has the walk. -/
theorem Leads.markFree {segments : List String} {owner : Entity}
    (h : Leads schema root segments owner) (hnames : schema.MarkFree root) :
    owner.MarkFree ∧ ∀ segment ∈ segments, IsMarkFree segment := by
  induction h with
  | here => exact ⟨hnames.root, nofun⟩
  | across named _ target _ ih =>
    obtain ⟨ha, hname⟩ := Entity.mem_of_associationNamed? named
    obtain ⟨howner, hrest⟩ := ih ⟨hnames.entities, hnames.of_entity? target⟩
    exact ⟨howner, List.forall_mem_cons.2 ⟨hname ▸ (hnames.root.associations _ ha).1, hrest⟩⟩

/-- The segments of a path that can be followed are names. -/
theorem Resolved.markFree_segments {r : Resolution} (h : Resolved schema root path r)
    (hnames : schema.MarkFree root) : ∀ segment ∈ path.segments, IsMarkFree segment := by
  obtain ⟨howner, hparent⟩ := h.leads.markFree hnames
  rw [← Path.parent_append_leaf h.nonempty, List.forall_mem_append, List.forall_mem_singleton]
  -- The steps in front lead over associations; the last one is the property itself.
  refine ⟨hparent, ?_⟩
  have hproperty := h.terminal
  cases hterminal : r.terminal with
  | field f =>
    rw [hterminal] at hproperty
    obtain ⟨hf, hname⟩ := Entity.mem_of_fieldNamed? (Entity.fieldNamed?_of_property? hproperty)
    exact hname ▸ (howner.fields f hf).1
  | association a =>
    rw [hterminal] at hproperty
    obtain ⟨ha, hname⟩ :=
      Entity.mem_of_associationNamed? (Entity.associationNamed?_of_property? hproperty)
    exact hname ▸ (howner.associations a ha).1

/-- The column of a property has a name without question marks. -/
theorem Resolved.markFree_column {r : Resolution} (h : Resolved schema root path r)
    (hnames : schema.MarkFree root) :
    (∀ f, r.terminal = .field f → IsMarkFree f.column) ∧
      ∀ a key, r.terminal = .association a → a.joinColumn? = some key → IsMarkFree key := by
  have howner := (h.leads.markFree hnames).1
  constructor
  · intro f hterminal
    have hfound := Entity.fieldNamed?_of_property? (hterminal ▸ h.terminal)
    exact (howner.fields f (Entity.mem_of_fieldNamed? hfound).1).2
  · intro a key hterminal hkey
    have hfound := Entity.associationNamed?_of_property? (hterminal ▸ h.terminal)
    exact (howner.associations a (Entity.mem_of_associationNamed? hfound).1).2 key hkey

/-- The column of a path has no question mark. -/
theorem JoinPlan.markFree_of_column (hnames : schema.MarkFree root) {c : Column}
    {type : Option ScalarType} (h : plan.column schema root path = .ok (c, type)) :
    IsMarkFree c.name := by
  obtain ⟨r, hr, _, hterminal⟩ := column_eq_ok h
  obtain ⟨hfield, hkey⟩ := (resolved_of_resolve hr).markFree_column hnames
  rcases hterminal with ⟨f, hterminal, hname, _⟩ | ⟨a, hterminal, hname⟩
  · exact hname ▸ hfield f hterminal
  · exact hkey a c.name hterminal hname

/-- Nor has that of the identifier. -/
theorem isMarkFree_idColumn (h : root.MarkFree) {key : String} (hkey : root.idColumn = .ok key) :
    IsMarkFree key := by
  unfold Entity.idColumn at hkey
  split at hkey
  · rename_i f hf
    cases hkey
    exact (h.fields f (Entity.mem_of_fieldNamed? hf).1).2
  · cases hkey

/-! ### Tables -/

/-- The name of a table is a letter and a number. -/
theorem isMarkFree_tableAlias (table : Nat) : IsMarkFree (tableAlias table) := by
  refine IsMarkFree.append (by decide) ?_
  show '?' ∉ (Nat.repr table).toList
  rw [Nat.repr_eq_ofList_toDigits, String.toList_ofList]
  intro hmark
  exact absurd (Nat.isDigit_of_mem_toDigits (by decide) (by decide) hmark) (by decide)

/-- Nor has a column with the alias of its table. -/
theorem Column.isMarkFree_text {c : Column} (h : IsMarkFree c.name) : IsMarkFree c.text :=
  ((isMarkFree_tableAlias c.table).append (by decide)).append h

/-- The entities that a plan joins have names without question marks. -/
def JoinPlan.MarkFree (plan : JoinPlan) : Prop := ∀ j ∈ plan.joins, j.target.MarkFree

/-- What is joined later has nothing to do with what was joined before. -/
theorem JoinPlan.Reads.markFree (h : Reads schema root plan plan') (hplan : plan'.MarkFree) :
    plan.MarkFree := by
  obtain ⟨needs, _, hserves⟩ := h
  intro j hj
  obtain ⟨j', hj', hbecame⟩ := hserves.keeps hj
  exact hbecame.target ▸ hplan j' hj'

/-- The joined entities are those of the schema, so a plan has no question marks. -/
theorem JoinPlan.Planned.markFree {joins : List Join} (h : Planned schema root joins)
    (hnames : schema.MarkFree root) : JoinPlan.MarkFree ⟨joins⟩ := by
  intro j hj
  obtain ⟨_, _, hlinked⟩ := h.linked_of_mem hj
  obtain ⟨_, _, _, _, _, htarget⟩ := hlinked.resolves
  exact hnames.of_entity? htarget

/-- Nor has its text. -/
theorem JoinPlan.Planned.isMarkFree_text {joins : List Join} (h : Planned schema root joins)
    (hnames : schema.MarkFree root) : IsMarkFree (JoinPlan.text ⟨joins⟩) := by
  refine IsMarkFree.join ?_
  rw [List.forall_mem_map]
  intro j hj
  obtain ⟨_, _, hlinked⟩ := h.linked_of_mem hj
  obtain ⟨r, a, hr, ha, hforeignKey, htarget⟩ := hlinked.resolves
  have htargetNames := hnames.of_entity? htarget
  have hterminal := Resolution.association?_eq_some_iff.1 ha
  have hforeign := ((resolved_of_resolve hr).markFree_column hnames).2 a _ hterminal hforeignKey
  have hkey := isMarkFree_idColumn htargetNames hlinked.targetKey
  -- A join is written with the table, its alias and the two keys.
  unfold Join.text
  refine (((((((IsMarkFree.append ?_ htargetNames.table).append (by decide)).append
    (isMarkFree_tableAlias _)).append (by decide)).append ?_).append (by decide)).append ?_)
  · cases j.kind <;> decide
  · exact Column.isMarkFree_text hkey
  · exact Column.isMarkFree_text hforeign

/-! ### Select lists -/

/-- No question mark stands in the column or the label. -/
structure SelectColumn.MarkFree (c : SelectColumn) : Prop where
  column : IsMarkFree c.column.name
  label : IsMarkFree c.label

/-- A column and a label without question marks are written without any. -/
theorem SelectColumn.MarkFree.isMarkFree_text {c : SelectColumn} (h : c.MarkFree) :
    IsMarkFree c.text :=
  (((Column.isMarkFree_text h.column).append (by decide)).append h.label).append (by decide)

namespace SelectList

open Planning

/-- All columns of a list, provided that the entities of the plan are as they should be. -/
def MarkFreeIn (plan : JoinPlan) (columns : List SelectColumn) : Prop :=
  plan.MarkFree → ∀ c ∈ columns, c.MarkFree

/-- Columns stay free of them while more is read. -/
theorem MarkFreeIn.stays (h : Reads schema root plan plan') {columns : List SelectColumn}
    (hcolumns : MarkFreeIn plan columns) : MarkFreeIn plan' columns :=
  fun hplan => hcolumns (h.markFree hplan)

/-- The columns of an entity's fields are free of them. -/
theorem markFree_fieldColumns {e : Entity} (h : e.MarkFree) (table : Nat) {before : String}
    (hbefore : IsMarkFree before) : ∀ c ∈ fieldColumns table before e, c.MarkFree := by
  intro c hc
  obtain ⟨f, hf, rfl⟩ := List.mem_map.1 hc
  obtain ⟨hname, hcolumn⟩ := h.fields f hf
  exact ⟨hcolumn, hbefore.append hname⟩

/-- So are those of its keys. -/
theorem markFree_keyColumn {e : Entity} (h : e.MarkFree) {a : Association}
    (ha : a ∈ e.associations) {table : Nat} {before : String} (hbefore : IsMarkFree before)
    {c : SelectColumn} (hc : keyColumn table before a = some c) : c.MarkFree := by
  obtain ⟨key, hkey, rfl⟩ := Option.map_eq_some_iff.1 hc
  obtain ⟨hname, hkeys⟩ := h.associations a ha
  exact ⟨hkeys key hkey, (hbefore.append (by decide)).append hname⟩

/-- And so is that of a path, if its label is. -/
theorem markFree_pathColumn (hnames : schema.MarkFree root) {label : String}
    (hlabel : IsMarkFree label) {c : SelectColumn}
    (h : (pathColumn schema root path label).run plan = .ok (c, plan')) : c.MarkFree := by
  unfold pathColumn at h
  obtain ⟨r, _, hresolve, h⟩ := run_bind_iff.1 h
  split at h
  · obtain ⟨_, _, hthrow, _⟩ := run_bind_iff.1 h
    exact absurd hthrow run_throw_ne
  · simp only [run_bind_iff, run_get_iff, run_lift_iff, run_pure_iff] at h
    obtain ⟨_, _, _, _, _, ⟨rfl, rfl⟩, ⟨column, type⟩, _, ⟨hcolumn, rfl⟩, rfl, rfl⟩ := h
    exact ⟨markFree_of_column hnames hcolumn, hlabel⟩

/-- The path of a column can be followed. -/
theorem isMarkFree_text_of_pathColumn (hnames : schema.MarkFree root) {label : String}
    {c : SelectColumn} (h : (pathColumn schema root path label).run plan = .ok (c, plan')) :
    IsMarkFree path.text := by
  unfold pathColumn at h
  obtain ⟨r, _, hresolve, _⟩ := run_bind_iff.1 h
  obtain ⟨hr, _⟩ := run_lift_iff.1 hresolve
  exact IsMarkFree.intercalate (by decide)
    ((resolved_of_resolve (lift_eq_ok_iff.1 hr)).markFree_segments hnames)

/-- What is read for an association is free of them. -/
theorem markFree_associationColumns (hnames : schema.MarkFree root) {fetchAll : Bool}
    {a : Association} (ha : a ∈ root.associations) {list : SelectList}
    (h : (associationColumns schema root fetchAll a).run plan = .ok (list, plan')) :
    MarkFreeIn plan' list.columns := by
  -- Whether everything is loaded only decides what is joined before.
  obtain ⟨mid, h⟩ : ∃ mid, (associationColumns schema root false a).run mid = .ok (list, plan') := by
    cases fetchAll with
    | false => exact ⟨plan, h⟩
    | true =>
      obtain ⟨_, mid, _, h⟩ := run_bind_iff.1 h
      exact ⟨mid, h⟩
  have hbefore : IsMarkFree (a.name ++ ".") := (hnames.root.associations a ha).1.append (by decide)
  obtain ⟨_, _, hget, h⟩ := run_bind_iff.1 h
  obtain ⟨rfl, rfl⟩ := run_get_iff.1 hget
  intro hplan
  split at h
  · simp only [run_bind_iff, run_get_iff] at h
    obtain ⟨_, _, _, _, _, ⟨rfl, rfl⟩, h⟩ := h
    split at h
    · exact absurd h run_throw_ne
    · -- The association is loaded, so its entity is joined.
      rename_i join hfind
      obtain ⟨rfl, rfl⟩ := run_pure_iff.1 h
      have htarget := hplan join (mem_of_find? hfind).1
      refine List.forall_mem_append.2 ⟨markFree_fieldColumns htarget _ hbefore, fun c hc => ?_⟩
      obtain ⟨b, hb, hc⟩ := List.mem_filterMap.1 hc
      exact markFree_keyColumn htarget hb hbefore hc
  · obtain ⟨rfl, rfl⟩ := run_pure_iff.1 h
    exact fun c hc => markFree_keyColumn hnames.root ha (by decide) (Option.mem_toList.1 hc)

/-- So is what is read for a whole record. -/
theorem markFree_ofEntity (hnames : schema.MarkFree root) {fetchAll : Bool} {list : SelectList}
    (h : (ofEntity schema root fetchAll).run plan = .ok (list, plan')) :
    MarkFreeIn plan' list.columns := by
  unfold ofEntity at h
  simp only [run_bind_iff, run_pure_iff] at h
  obtain ⟨lists, _, hlists, rfl, rfl⟩ := h
  obtain ⟨_, hcolumns⟩ := run_mapM_forall₂
    (fun p a (list : SelectList) => a ∈ root.associations → MarkFreeIn p list.columns)
    (fun hreads hlist ha => (hlist ha).stays hreads)
    (fun hrun => ⟨(run_associationColumns hrun).1,
      fun ha => markFree_associationColumns hnames ha hrun⟩) hlists
  intro hplan
  refine List.forall_mem_append.2 ⟨markFree_fieldColumns hnames.root 0 (by decide), fun c hc => ?_⟩
  obtain ⟨list, hlist, hc⟩ := List.mem_flatMap.1 hc
  obtain ⟨a, ha, hgood⟩ := exists_left_of_forall₂ hcolumns hlist
  exact hgood (List.mem_filter.1 ha).1 hplan c hc

/-- Columns of paths, with labels of their own. -/
theorem markFree_mapM_pathColumn (hnames : schema.MarkFree root) {β : Type} (f : β → Path × String)
    {items : List β} (hlabels : ∀ item ∈ items, IsMarkFree (f item).2) {columns : List SelectColumn}
    (h : (items.mapM fun item => pathColumn schema root (f item).1 (f item).2).run plan =
      .ok (columns, plan')) : ∀ c ∈ columns, c.MarkFree := by
  obtain ⟨_, hcolumns⟩ := run_mapM_forall₂
    (fun _ item (c : SelectColumn) => IsMarkFree (f item).2 → c.MarkFree)
    (fun _ hgood => hgood)
    (fun hrun => ⟨(run_pathColumn hrun).1, fun hlabel => markFree_pathColumn hnames hlabel hrun⟩) h
  intro c hc
  obtain ⟨item, hitem, hgood⟩ := exists_left_of_forall₂ hcolumns hc
  exact hgood (hlabels item hitem)

/-- Written selections are, if their labels are. -/
theorem markFree_ofSelections (hnames : schema.MarkFree root) {selections : List Selection}
    (hlabels : ∀ s ∈ selections, IsMarkFree s.label) {list : SelectList}
    (h : (ofSelections schema root selections).run plan = .ok (list, plan')) :
    ∀ c ∈ list.columns, c.MarkFree := by
  unfold ofSelections at h
  simp only [run_bind_iff, run_pure_iff] at h
  obtain ⟨columns, _, hcolumns, rfl, rfl⟩ := h
  exact markFree_mapM_pathColumn hnames (fun s : Selection => (s.path, s.label)) hlabels hcolumns

/-- The names of an accessor are those of the properties that it reads. -/
theorem markFree_accessorColumns (hnames : schema.MarkFree root) {view : String}
    {accessor : Accessor} {columns : List SelectColumn}
    (h : (accessorColumns schema root view accessor).run plan = .ok (columns, plan')) :
    ∀ c ∈ columns, c.MarkFree := by
  cases accessor with
  | field name =>
    simp only [accessorColumns] at h
    split at h
    · rename_i f hf
      obtain ⟨rfl, rfl⟩ := run_pure_iff.1 h
      obtain ⟨hmem, hname⟩ := Entity.mem_of_fieldNamed? hf
      obtain ⟨hfree, hcolumn⟩ := hnames.root.fields f hmem
      exact List.forall_mem_singleton.2 ⟨hcolumn, hname ▸ hfree⟩
    · exact absurd h run_throw_ne
  | nested name nested =>
    simp only [accessorColumns] at h
    split at h
    · exact absurd h run_throw_ne
    · rename_i key hkey
      simp only [run_bind_iff, run_pure_iff] at h
      obtain ⟨_, _, _, inner, _, hinner, rfl, rfl⟩ := h
      obtain ⟨a, ha, hkey⟩ := Option.bind_eq_some_iff.1 hkey
      obtain ⟨hmem, hname⟩ := Entity.mem_of_associationNamed? ha
      have hfree : IsMarkFree name := hname ▸ (hnames.root.associations a hmem).1
      refine List.forall_mem_cons.2 ⟨markFree_keyColumn hnames.root hmem (by decide) hkey, ?_⟩
      refine (run_mapM (fun _ c => c.MarkFree) (fun (_ : Reads schema root _ _) hgood => hgood)
        (fun {accessor p c p'} hrun => ?_) hinner).2
      cases accessor with
      | nested => exact absurd hrun run_throw_ne
      | field field =>
        refine ⟨(run_pathColumn hrun).1, markFree_pathColumn hnames ?_ hrun⟩
        -- The field is the last segment of a path that can be followed.
        obtain ⟨r, _, hresolve, _⟩ := run_bind_iff.1 hrun
        obtain ⟨hr, _⟩ := run_lift_iff.1 hresolve
        have hsegments :=
          (resolved_of_resolve (lift_eq_ok_iff.1 hr)).markFree_segments hnames
        have hfield : IsMarkFree field := hsegments field (by simp [Path.child])
        exact (hfree.append (by decide)).append hfield

/-- So is a view, whose accessors are names of the schema. -/
theorem markFree_ofClosedView (hnames : schema.MarkFree root) {view : ClosedView} {list : SelectList}
    (h : (ofClosedView schema root view).run plan = .ok (list, plan')) :
    ∀ c ∈ list.columns, c.MarkFree := by
  unfold ofClosedView at h
  simp only [run_bind_iff, run_pure_iff] at h
  obtain ⟨lists, _, hlists, rfl, rfl⟩ := h
  obtain ⟨_, hcolumns⟩ := run_mapM (fun _ (columns : List SelectColumn) => ∀ c ∈ columns, c.MarkFree)
    (fun _ hgood => hgood)
    (fun hrun => ⟨(run_accessorColumns hrun).1, markFree_accessorColumns hnames hrun⟩) hlists
  intro c hc
  obtain ⟨columns, hmem, hc⟩ := List.mem_flatten.1 hc
  exact hcolumns columns hmem c hc

/-- And a constructor, if its parameters are. -/
theorem markFree_ofConstructor (hnames : schema.MarkFree root) {shape : Constructor}
    (hparameters : ∀ p ∈ shape.parameters, IsMarkFree p) {list : SelectList}
    (h : (ofConstructor schema root shape).run plan = .ok (list, plan')) :
    ∀ c ∈ list.columns, c.MarkFree := by
  unfold ofConstructor at h
  obtain ⟨columns, _, hcolumns, h⟩ := run_bind_iff.1 h
  have hfree := markFree_mapM_pathColumn hnames id (fun named hnamed => by
    obtain ⟨parameter, hparameter, hpath⟩ := List.mem_filterMap.1 hnamed
    obtain ⟨_, _, rfl⟩ := Option.map_eq_some_iff.1 hpath
    exact hparameters parameter hparameter) hcolumns
  -- Without columns the identifier is read under the marker's label.
  split at h
  · simp only [run_bind_iff, run_lift_iff, run_pure_iff] at h
    obtain ⟨key, _, ⟨hkey, rfl⟩, rfl, rfl⟩ := h
    have hlabel : IsMarkFree (keyMarker ++ "id") := by decide
    exact List.forall_mem_singleton.2 ⟨isMarkFree_idColumn hnames.root hkey, hlabel⟩
  · obtain ⟨rfl, rfl⟩ := run_pure_iff.1 h
    exact hfree

end SelectList

/-! ### Whole selects -/

/-- No question mark stands in a name that a query uses: those of the schema, and the labels that
    the query chooses itself. -/
structure Query.MarkFree (schema : Schema) (q : Query) : Prop extends schema.MarkFree q.entity where
  labels : ∀ s ∈ q.selections, IsMarkFree s.label
  parameters : ∀ shape, q.target = .constructor shape → ∀ p ∈ shape.parameters, IsMarkFree p

namespace SelectList

open Planning

/-- All that a query reads is free of question marks if its names and labels are. -/
theorem markFree_ofQuery {q : Query} (hnames : q.MarkFree schema) {list : SelectList}
    (h : (ofQuery schema q).run plan = .ok (list, plan')) : MarkFreeIn plan' list.columns := by
  -- Three kinds of target fall back on what is written.
  have hselections : (ofSelections schema q.entity q.selections).run plan = .ok (list, plan') →
      MarkFreeIn plan' list.columns :=
    fun h _ => markFree_ofSelections hnames.toMarkFree hnames.labels h
  unfold ofQuery at h
  split at h
  · exact markFree_ofEntity hnames.toMarkFree h
  · exact markFree_ofEntity hnames.toMarkFree h
  · exact absurd h run_throw_ne
  · split at h
    · simp only [run_bind_iff, run_pure_iff] at h
      obtain ⟨c, _, hc, rfl, rfl⟩ := h
      have hlabel := isMarkFree_text_of_pathColumn hnames.toMarkFree hc
      exact fun _ => List.forall_mem_singleton.2
        (markFree_pathColumn hnames.toMarkFree hlabel hc)
    · exact hselections h
  · split at h
    · exact fun _ => markFree_ofClosedView hnames.toMarkFree h
    · exact hselections h
  · rename_i shape htarget
    split at h
    · exact fun _ => markFree_ofConstructor hnames.toMarkFree (hnames.parameters shape htarget) h
    · exact hselections h

end SelectList

namespace Select

variable {q : Query} {s : Select}

/-- So are the columns of its select. -/
theorem markFree_columns (hnames : q.MarkFree schema) (h : Select.ofQuery schema q = .ok s) :
    ∀ c ∈ s.list.columns, c.MarkFree := by
  obtain ⟨deciding, middle, _, hlist, horder, _⟩ := ofQuery_eq_ok h
  have hplan := (plannedFor_of_ofQuery h).planned.markFree hnames.toMarkFree
  exact SelectList.markFree_ofQuery hnames hlist ((run_orderTerms horder).1.markFree hplan)

/-- And those of its order. -/
theorem markFree_order (hnames : q.MarkFree schema) (h : Select.ofQuery schema q = .ok s) :
    ∀ t ∈ s.order, IsMarkFree t.1.name := by
  have hordered := (plannedFor_of_ofQuery h).ordered
  unfold OrderColumns at hordered
  split at hordered
  · obtain ⟨key, hkey, hterms⟩ := hordered
    rw [hterms]
    exact List.forall_mem_singleton.2 (isMarkFree_idColumn hnames.root hkey)
  · intro t ht
    obtain ⟨_, _, ⟨_, hcolumn⟩, _⟩ := exists_left_of_forall₂ hordered ht
    exact markFree_of_column hnames.toMarkFree hcolumn

/-- The list is written without question marks. -/
theorem isMarkFree_listText (hnames : q.MarkFree schema) (h : Select.ofQuery schema q = .ok s) :
    IsMarkFree s.list.text := by
  refine IsMarkFree.intercalate (by decide) ?_
  rw [List.forall_mem_map]
  exact fun c hc => (markFree_columns hnames h c hc).isMarkFree_text

/-- And so is the order. -/
theorem isMarkFree_orderText (hnames : q.MarkFree schema) (h : Select.ofQuery schema q = .ok s) :
    IsMarkFree s.orderText := by
  refine IsMarkFree.append (by decide) (IsMarkFree.intercalate (by decide) ?_)
  rw [List.forall_mem_map]
  rintro ⟨c, d⟩ ht
  have hdirection : IsMarkFree d.sql := by cases d <;> decide
  exact ((Column.isMarkFree_text (markFree_order hnames h _ ht)).append (by decide)).append
    hdirection

end Select

end EntityQuery
