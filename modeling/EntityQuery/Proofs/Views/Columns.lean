import EntityQuery.Proofs.Result.Labels

namespace EntityQuery

open JoinPlan

/-!
# Columns of closed views

A closed view selects only what its accessors read, and in the order of the accessors.  Its columns
are told by the places that they stand for: a place has one column in a finished plan (`spotColumn`),
the view lists its places (`ClosedView.spots`), and the select list has the columns of these places
(`run_ofClosedView_eq`).  An accessor may be written twice, so a label may be used twice, but then
for the same column (`SelectList.AreColumns.eq_of_label`).
-/

variable {schema : Schema} {root : Entity} {plan plan' : JoinPlan}

namespace SelectList

/-- The column of a place: a field or a foreign key of the root, or a field behind one of its
    associations. -/
def spotColumn (schema : Schema) (root : Entity) (plan : JoinPlan) (s : Spot) : Option SelectColumn :=
  match s.before, s.isKey with
  | none, false => (root.fieldNamed? s.name).map fun f => ⟨⟨0, f.column⟩, s.label, some f.type⟩
  | none, true =>
    ((root.associationNamed? s.name).bind (·.joinColumn?)).map fun key => ⟨⟨0, key⟩, s.label, none⟩
  | some association, false => do
    let a ← root.associationNamed? association
    let target ← schema.entity? a.target
    let table ← (plan.table (.single association)).toOption
    let f ← target.fieldNamed? s.name
    return ⟨⟨table, f.column⟩, s.label, some f.type⟩
  | some _, true => none

/-- A column carries the label of its place. -/
theorem label_of_spotColumn {s : Spot} {c : SelectColumn}
    (h : spotColumn schema root plan s = some c) : c.label = s.label := by
  unfold spotColumn at h
  split at h
  · obtain ⟨_, _, rfl⟩ := Option.map_eq_some_iff.1 h
    rfl
  · obtain ⟨_, _, rfl⟩ := Option.map_eq_some_iff.1 h
    rfl
  · simp only [Option.bind_eq_bind, Option.bind_eq_some_iff] at h
    obtain ⟨_, _, _, _, _, _, _, _, h⟩ := h
    cases h
    rfl
  · cases h

/-- A spot behind an association is a column of the joined table. -/
theorem spotColumn_behind {association field : String} {a : Association} {target : Entity}
    {table : Nat} {f : Field} (ha : root.associationNamed? association = some a)
    (htarget : schema.entity? a.target = some target)
    (htable : plan.table (.single association) = .ok table)
    (hf : target.fieldNamed? field = some f) :
    spotColumn schema root plan ⟨some association, false, field⟩ =
      some ⟨⟨table, f.column⟩, Spot.label ⟨some association, false, field⟩, some f.type⟩ := by
  simp only [spotColumn, ha, htarget, htable, hf, Except.toOption, Option.bind_eq_bind,
    Option.bind_some]
  rfl

/-- The column of a place stays the same while further columns are chosen. -/
theorem spotColumn_stays (h : Reads schema root plan plan') {s : Spot} {c : SelectColumn}
    (hc : spotColumn schema root plan s = some c) : spotColumn schema root plan' s = some c := by
  obtain ⟨before, isKey, name⟩ := s
  cases before with
  | none => cases isKey <;> exact hc
  | some association =>
    cases isKey with
    | true => exact hc
    | false =>
      simp only [spotColumn, Option.bind_eq_bind, Option.bind_eq_some_iff] at hc
      obtain ⟨a, ha, target, htarget, table, htable, f, hf, hc⟩ := hc
      -- The table has its number from the join, and later joins leave that one.
      have hstays := h.table_stays (toOption_eq_some_iff.1 htable)
      rw [spotColumn_behind ha htarget hstays hf]
      exact hc

end SelectList

/-! ### The places of a view -/

/-- The place that an accessor of a nested view reads. -/
def Accessor.spotBehind (association : String) : Accessor → Spot
  | .field name => ⟨some association, false, name⟩
  | .nested deeper _ => ⟨some association, true, deeper⟩

/-- The places that an accessor reads: of a nested view also the key that tells whether it is
    there. -/
def Accessor.spots : Accessor → List Spot
  | .field name => [⟨none, false, name⟩]
  | .nested name view => ⟨none, true, name⟩ :: view.accessors.map (spotBehind name)

/-- The spots of a view are those of its accessors. -/
def ClosedView.spots (view : ClosedView) : List Spot := view.accessors.flatMap Accessor.spots

namespace SelectList

open Planning

/-- The columns of some places, one for each. -/
def AreColumns (schema : Schema) (root : Entity) (plan : JoinPlan) (spots : List Spot)
    (columns : List SelectColumn) : Prop :=
  List.Forall₂ (fun s c => spotColumn schema root plan s = some c) spots columns

/-- Columns stay what they are as the plan grows. -/
theorem AreColumns.stays (h : Reads schema root plan plan') {spots : List Spot}
    {columns : List SelectColumn} (hcolumns : AreColumns schema root plan spots columns) :
    AreColumns schema root plan' spots columns :=
  hcolumns.imp fun _ _ => spotColumn_stays h

/-- The column at the end of a path is that of a field, in the table that its parent leads to. -/
theorem run_pathColumn_eq {path : Path} {label : String} {c : SelectColumn}
    (h : (pathColumn schema root path label).run plan = .ok (c, plan')) :
    ∃ r f, schema.resolve root path = .ok r ∧ r.terminal = .field f ∧
      plan'.table path.parent = .ok c.column.table ∧
      c = ⟨⟨c.column.table, f.column⟩, label, some f.type⟩ := by
  unfold pathColumn at h
  obtain ⟨r, _, hresolve, h⟩ := run_bind_iff.1 h
  obtain ⟨hr, rfl⟩ := run_lift_iff.1 hresolve
  rw [lift_eq_ok_iff] at hr
  split at h
  · obtain ⟨_, _, hthrow, _⟩ := run_bind_iff.1 h
    exact absurd hthrow run_throw_ne
  · rename_i hfield
    simp only [run_bind_iff, run_get_iff, run_lift_iff, run_pure_iff] at h
    obtain ⟨_, mid, _, _, _, ⟨rfl, rfl⟩, ⟨column, type⟩, _, ⟨hcolumn, rfl⟩, rfl, rfl⟩ := h
    -- The path was resolved twice, with one result.
    obtain ⟨r', hr', htable, hterminal⟩ := column_eq_ok hcolumn
    obtain rfl := Except.ok.inj (hr.symm.trans hr')
    rcases hterminal with ⟨f, hterminal, hname, rfl⟩ | ⟨a, hterminal, _⟩
    · refine ⟨r, f, hr, hterminal, htable, ?_⟩
      rw [← hname]
    · simp [Resolution.isField_iff, hterminal] at hfield

/-- What a nested view reads is a field of the entity behind the association. -/
theorem run_pathColumn_behind {association field : String} {c : SelectColumn}
    (h : (pathColumn schema root ((Path.single association).child field)
      (association ++ "." ++ field)).run plan = .ok (c, plan')) :
    spotColumn schema root plan' ⟨some association, false, field⟩ = some c := by
  obtain ⟨r, f, hr, hterminal, htable, hc⟩ := run_pathColumn_eq h
  have hresolved := resolved_of_resolve hr
  have hproperty := hresolved.terminal
  rw [hterminal] at hproperty
  -- One association is crossed, and what it leads to owns the field.
  have hleads : Leads schema root [association] r.owner := hresolved.leads
  have hfield : r.owner.fieldNamed? field = some f := Entity.fieldNamed?_of_property? hproperty
  generalize r.owner = owner at hleads hfield
  cases hleads with
  | across named _ target onward =>
    cases onward
    rw [spotColumn_behind named target htable hfield, hc]
    simp [Spot.label, Spot.prefixOf]

/-- **One accessor** selects the columns of its places. -/
theorem run_accessorColumns_eq {view : String} {accessor : Accessor} {columns : List SelectColumn}
    (h : (accessorColumns schema root view accessor).run plan = .ok (columns, plan')) :
    AreColumns schema root plan' accessor.spots columns := by
  cases accessor with
  | field name =>
    -- A field is the root's own column.
    simp only [accessorColumns] at h
    split at h
    · rename_i f hf
      obtain ⟨rfl, rfl⟩ := run_pure_iff.1 h
      unfold AreColumns Accessor.spots
      refine .cons ?_ .nil
      simp [spotColumn, hf, Spot.label, Spot.prefixOf]
    · exact absurd h run_throw_ne
  | nested name nested =>
    simp only [accessorColumns] at h
    split at h
    · exact absurd h run_throw_ne
    · rename_i key hkey
      simp only [run_bind_iff, run_pure_iff] at h
      obtain ⟨_, mid, _, inner, _, hinner, rfl, rfl⟩ := h
      obtain ⟨a, ha, hkey⟩ := Option.bind_eq_some_iff.1 hkey
      obtain ⟨column, hcolumn, rfl⟩ := Option.map_eq_some_iff.1 hkey
      have hname : a.name = name := (Entity.mem_of_associationNamed? ha).2
      unfold AreColumns Accessor.spots
      refine .cons ?_ ?_
      · simp [spotColumn, ha, hcolumn, Spot.label, Spot.prefixOf, hname]
      · rw [List.forall₂_map_left_iff]
        refine (run_mapM_forall₂
          (fun p accessor c => spotColumn schema root p (accessor.spotBehind name) = some c)
          (fun hreads => spotColumn_stays hreads) (fun {accessor p c p'} hrun => ?_) hinner).2
        cases accessor with
        | field field => exact ⟨(run_pathColumn hrun).1, run_pathColumn_behind hrun⟩
        | nested => exact absurd hrun run_throw_ne

/-- **The select list of a closed view** has the columns of its places. -/
theorem run_ofClosedView_eq {view : ClosedView} {list : SelectList}
    (h : (ofClosedView schema root view).run plan = .ok (list, plan')) :
    AreColumns schema root plan' view.spots list.columns := by
  unfold ofClosedView at h
  simp only [run_bind_iff, run_pure_iff] at h
  obtain ⟨lists, _, hlists, rfl, rfl⟩ := h
  obtain ⟨_, hcolumns⟩ := run_mapM_forall₂
    (fun p accessor columns => AreColumns schema root p accessor.spots columns)
    (fun hreads => AreColumns.stays hreads)
    (fun hrun => ⟨(run_accessorColumns hrun).1, run_accessorColumns_eq hrun⟩) hlists
  unfold ClosedView.spots
  generalize view.accessors = accessors at hcolumns
  clear hlists
  -- The columns of the accessors stand one behind the other.
  induction hcolumns with
  | nil => exact .nil
  | cons hfirst _ ih => exact List.rel_append hfirst ih

/-! ### Labels -/

/-- The names that a view uses are plain wherever they name a property. -/
theorem plain_of_spotColumn {s : Spot} {c : SelectColumn} (hnames : root.PlainNames)
    (hschema : ∀ e ∈ schema.entities, e.PlainNames) (hc : spotColumn schema root plan s = some c) :
    s.Plain := by
  obtain ⟨before, isKey, name⟩ := s
  -- What a spot is called is a name of the schema, and those are plain.
  have hassociation : ∀ {name : String} {a : Association},
      root.associationNamed? name = some a → IsPlainName name := by
    intro name a ha
    obtain ⟨hmem, rfl⟩ := Entity.mem_of_associationNamed? ha
    exact hnames.associations a hmem
  have hfield : ∀ {e : Entity} {name : String} {f : Field}, e.PlainNames →
      e.fieldNamed? name = some f → IsPlainName name := by
    intro e name f he hf
    obtain ⟨hmem, rfl⟩ := Entity.mem_of_fieldNamed? hf
    exact he.fields f hmem
  cases before with
  | none =>
    cases isKey with
    | false =>
      obtain ⟨f, hf, _⟩ := Option.map_eq_some_iff.1 hc
      exact ⟨nofun, hfield hnames hf⟩
    | true =>
      obtain ⟨key, hkey, _⟩ := Option.map_eq_some_iff.1 hc
      obtain ⟨a, ha, _⟩ := Option.bind_eq_some_iff.1 hkey
      exact ⟨nofun, hassociation ha⟩
  | some association =>
    cases isKey with
    | true => cases hc
    | false =>
      simp only [spotColumn, Option.bind_eq_bind, Option.bind_eq_some_iff] at hc
      obtain ⟨a, ha, target, htarget, _, _, f, hf, _⟩ := hc
      refine ⟨fun _ hsame => Option.some.inj hsame ▸ hassociation ha, ?_⟩
      exact hfield (hschema target (List.mem_of_find?_eq_some htarget)) hf

/-- **A label stands for one column.** -/
theorem AreColumns.eq_of_label (hnames : root.PlainNames)
    (hschema : ∀ e ∈ schema.entities, e.PlainNames) {spots : List Spot}
    {columns : List SelectColumn} (h : AreColumns schema root plan spots columns)
    {c c' : SelectColumn} (hc : c ∈ columns) (hc' : c' ∈ columns) (hlabel : c.label = c'.label) :
    c = c' := by
  obtain ⟨s, _, hs⟩ := exists_left_of_forall₂ h hc
  obtain ⟨s', _, hs'⟩ := exists_left_of_forall₂ h hc'
  rw [label_of_spotColumn hs, label_of_spotColumn hs'] at hlabel
  obtain rfl := Spot.label_injective (plain_of_spotColumn hnames hschema hs)
    (plain_of_spotColumn hnames hschema hs') hlabel
  exact Option.some.inj (hs.symm.trans hs')

end SelectList

end EntityQuery
