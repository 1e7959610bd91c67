import EntityQuery.Proofs.Result.Listed
import EntityQuery.Proofs.Template.Selected
import EntityQuery.Proofs.Views.Shown

namespace EntityQuery

/-!
# Tuples

A written list of several paths makes up a view with an entry for each of them.  The entries are
looked up by the labels of the columns: one whose label is used once holds the value at its place,
and entries of one label are all the same (`SelectList.Shows`).  What a template selects is shown as
far as its labels go (`Template.tuple_entries`); paths that end alike share their label
(`Template.tuple_entry_lost`).
-/

variable {schema : Schema} {plan : MappingPlan} {list : SelectList} {values : List Value}
variable {row : Row} {view : String} {entries : List (String × ViewEntry)} {result : Projected}

/-- The entries of a view that has one for each cell: each has the label of its column, and it holds
    the recovered value if no other column has that label.  Entries of one label are the same. -/
structure SelectList.Shows (list : SelectList) (values : List Value)
    (entries : List (String × ViewEntry)) : Prop where
  placed : List.Forall₂ (fun cell entry => entry.1 = cell.1.label ∧
    (list.labels.count cell.1.label = 1 →
      ∃ v, cell.1.read cell.2 = .ok v ∧ entry.2 = .value v)) (list.cells values) entries
  alike : ∀ entry ∈ entries, ∀ entry' ∈ entries, entry.1 = entry'.1 → entry = entry'

/-- All values of a row can be recovered with the types of their columns. -/
def SelectList.Readable (list : SelectList) (values : List Value) : Prop :=
  ∀ cell ∈ list.cells values, ∃ v, cell.1.read cell.2 = .ok v

/-- A view with a field for each column. -/
def SelectList.flatView (list : SelectList) (view : String) : ClosedView :=
  .mk view (list.labels.map .field)

namespace Mapping

/-- The fields of a view are what a row holds under their names. -/
theorem closedEntries_fields_eq_ok_iff {labels : List String} :
    closedEntries row "" view (labels.map .field) = .ok entries ↔
      List.Forall₂ (fun label entry => ∃ v, row.get? label = some v ∧ entry = (label, .value v)) labels
        entries := by
  rw [closedEntries_eq_mapM, listMapM_eq_ok_iff, List.forall₂_map_left_iff]
  have hentry : ∀ label entry, closedEntry row "" view (.field label) = .ok entry ↔
      ∃ v, row.get? label = some v ∧ entry = (label, .value v) := by
    intro label entry
    rw [closedEntry, String.empty_append]
    cases row.get? label <;> simp [eq_comm]
  simp only [hentry]

/-- A row is read for a flat view by recovering it and looking its labels up. -/
theorem readRow_flatView_eq_ok_iff (htarget : plan.target = .closed (list.flatView view)) :
    readRow schema plan row = .ok result ↔
      ∃ row' entries, coerceRow plan.types row = .ok row' ∧ result = .view (.mk view entries) ∧
        List.Forall₂ (fun label entry => ∃ v, row'.get? label = some v ∧ entry = (label, .value v))
          list.labels entries := by
  unfold readRow mapRow
  simp only [bind_eq_ok_iff, htarget, SelectList.flatView, closedView, closedEntries_fields_eq_ok_iff,
    pure_eq_ok_iff]
  constructor
  · rintro ⟨row', hrow, _, ⟨entries, hentries, rfl⟩, rfl⟩
    exact ⟨row', entries, hrow, rfl, hentries⟩
  · rintro ⟨row', entries, hrow, rfl, hentries⟩
    exact ⟨row', hrow, _, ⟨entries, hentries, rfl⟩, rfl⟩

/-- **What a flat view shows** of the answer to a select. -/
theorem shows_of_readRow (htarget : plan.target = .closed (list.flatView view))
    (htypes : plan.types = list.types) (hlength : values.length = list.columns.length)
    (h : readRow schema plan ⟨list.labels, values⟩ = .ok result) :
    ∃ entries, result = .view (.mk view entries) ∧ list.Shows values entries := by
  obtain ⟨row', entries, hrow, rfl, hentries⟩ := (readRow_flatView_eq_ok_iff htarget).1 h
  rw [htypes] at hrow
  refine ⟨entries, rfl, ?_, ?_⟩
  · rw [← SelectList.map_label_cells hlength, List.forall₂_map_left_iff] at hentries
    refine ((List.forall₂_and_left _ _).2 ⟨fun cell hcell => hcell, hentries⟩).imp ?_
    rintro cell entry ⟨hcell, v, hget, rfl⟩
    refine ⟨rfl, fun hcount => ⟨v, ?_, rfl⟩⟩
    -- A label that is used once leads to the value at its own place.
    have hpair : (cell.1.label, cell.2) ∈ Row.pairs ⟨list.labels, values⟩ := by
      rw [SelectList.pairs_eq_map_cells]
      exact List.mem_map_of_mem hcell
    obtain ⟨v', hread, hfound⟩ :=
      exists_get?_of_coerceRow (hlength.trans list.length_labels.symm) hcount hpair hrow
    obtain rfl := Option.some.inj (hget.symm.trans hfound)
    exact (SelectList.read_of_count hcell hcount).symm.trans hread
  · intro entry hentry entry' hentry' hlabel
    obtain ⟨_, _, v, hget, rfl⟩ := exists_left_of_forall₂ hentries hentry
    obtain ⟨_, _, v', hget', rfl⟩ := exists_left_of_forall₂ hentries hentry'
    obtain rfl := hlabel
    rw [Option.some.inj (hget.symm.trans hget')]

/-- Labels that are used once have every readable row shown. -/
theorem exists_readRow_flatView (htarget : plan.target = .closed (list.flatView view))
    (htypes : plan.types = list.types) (hlabels : list.labels.Nodup)
    (hlength : values.length = list.columns.length) (hreadable : list.Readable values) :
    ∃ result, readRow schema plan ⟨list.labels, values⟩ = .ok result := by
  obtain ⟨row', hrow, htells⟩ :=
    SelectList.coerceRow_cells (SelectList.apart_of_nodup hlabels hlength) hlength hreadable
  obtain ⟨entries, hentries⟩ : ∃ entries, List.Forall₂ (fun label entry =>
      ∃ v, row'.get? label = some v ∧ entry = (label, ViewEntry.value v)) list.labels entries := by
    refine exists_forall₂ fun label hlabel => ?_
    rw [← SelectList.map_label_cells hlength] at hlabel
    obtain ⟨cell, hcell, rfl⟩ := List.mem_map.1 hlabel
    obtain ⟨v, _, hget⟩ := htells cell hcell
    exact ⟨_, v, hget, rfl⟩
  exact ⟨_, (readRow_flatView_eq_ok_iff htarget).2 ⟨row', entries, htypes ▸ hrow, rfl, hentries⟩⟩

end Mapping

namespace Template

variable {text : String} {t : SelectTemplate} {shape : Shape} {q : Query} {c : Compiled}

/-- Several paths that no constructor takes make up a view of fields. -/
theorem target_of_several (hparse : parse schema text = .ok (.select t))
    (hseveral : 2 ≤ t.selections.length) (hlist : ∀ constructor, t.target ≠ .constructor constructor) :
    t.target = listTarget t.selections ∧
      t.target = .closed (.mk "Tuple" ((t.selections.map (·.label)).map .field)) := by
  rcases selects_of_parse hparse with ⟨hnone, _⟩ | ⟨_, constructor, hconstructs, _⟩ | ⟨_, hmade⟩
  · rw [hnone] at hseveral
    cases hseveral
  · exact absurd hconstructs (hlist constructor)
  · refine ⟨hmade, hmade.trans ?_⟩
    -- A list of one item is read by itself; of several, a tuple is made.
    unfold listTarget
    split
    · rename_i hone
      rw [hone] at hseveral
      simp at hseveral
    · rw [List.map_map]
      rfl

/-- **A tuple holds what was selected**, as far as its labels tell the values apart.  A written list of
    several paths compiles to a column for each of them, in written order.  Where the rows that come
    back can be mapped, each becomes a view with an entry for each column, under its label; an entry
    whose label is used once holds the recovered value of the column at its place.  Where no label is
    used twice, all rows can be mapped whose values can be recovered. -/
theorem tuple_entries (hparse : parse schema text = .ok (.select t))
    (hseveral : 2 ≤ t.selections.length) (hlist : ∀ constructor, t.target ≠ .constructor constructor)
    (hq : MethodDeclaration.templateQuery t shape .entity = .ok q)
    (hcompile : q.compile schema = .ok c) :
    ∃ s, Select.ofQuery schema q = .ok s ∧ s.compiled q = c ∧
      List.Forall₂ (fun sel column => column.label = sel.label ∧
        SelectColumn.StandsFor schema s sel.path column) t.selections s.list.columns ∧
      ∀ rows, s.list.Fits rows →
        (∀ results, Mapping.mapRows schema c.plan rows = .ok results →
          List.Forall₂ (fun values result => ∃ entries, result = .view (.mk "Tuple" entries) ∧
            s.list.Shows values entries) rows.rows results) ∧
        ((t.selections.map (·.label)).Nodup → (∀ values ∈ rows.rows, s.list.Readable values) →
          ∃ results, Mapping.mapRows schema c.plan rows = .ok results) := by
  obtain rfl := Except.ok.inj ((templateQuery_entity t shape).symm.trans hq)
  obtain ⟨s, hs, rfl⟩ := Query.compile_eq_ok_iff.1 hcompile
  obtain ⟨hmade, hfields⟩ := target_of_several hparse hseveral hlist
  -- The target of the template is that of its own list, so the list is what is selected.
  have hselections : SelectList.ofQuery schema (SelectTemplate.query t shape) =
      SelectList.ofSelections schema t.entity t.selections := ofQuery_listTarget hmade
  have hlabels : s.list.labels = t.selections.map (·.label) := Select.labels_selections hs hselections
  have htarget : (s.compiled (SelectTemplate.query t shape)).plan.target =
      .closed (s.list.flatView "Tuple") := by
    show t.target = _
    rw [hfields, SelectList.flatView, hlabels]
  refine ⟨s, hs, rfl, Select.forall₂_selections hs hselections, fun rows hfits => ⟨?_, ?_⟩⟩
  · intro results hresults
    obtain ⟨_, hrows⟩ := Mapping.mapRows_eq_ok_iff.1 hresults
    rw [RowSet.toRows, List.forall₂_map_left_iff, hfits.columns] at hrows
    refine ((List.forall₂_and_left _ _).2 ⟨fun values hvalues => hvalues, hrows⟩).imp ?_
    rintro values result ⟨hvalues, hread⟩
    exact Mapping.shows_of_readRow htarget rfl (hfits.rectangular values hvalues) hread
  · intro hnodup hreadable
    have hread : ∀ values ∈ rows.rows, ∃ result, Mapping.readRow schema
        (s.compiled (SelectTemplate.query t shape)).plan ⟨s.list.labels, values⟩ = .ok result :=
      fun values hvalues => Mapping.exists_readRow_flatView htarget rfl (hlabels ▸ hnodup)
        (hfits.rectangular values hvalues) (hreadable values hvalues)
    obtain ⟨results, hresults⟩ := exists_forall₂ hread
    refine ⟨results, Mapping.mapRows_eq_ok_iff.2 ⟨?_, ?_⟩⟩
    · unfold Mapping.checkColumns
      rw [htarget]
    · rw [RowSet.toRows, List.forall₂_map_left_iff, hfits.columns]
      exact hresults

end Template

namespace Sample

/-- The ages of the members, with their teams. -/
def agesWithTeams : String := "select m.age, t.id from Member m join m.team t"

/-- The members with their teams, both by their identifiers. -/
def keysWithTeams : String := "select m.id, t.id from Member m join m.team t"

/-- An answer of one row. -/
def oneTuple (columns : List String) (values : List Value) : RowSet := ⟨columns, [values]⟩

/-- A template that was accepted as a tuple, with its select. -/
def tuple (text : String) (good : SelectTemplate → Select → Bool) : Bool :=
  (Template.parse league text).toOption.any fun
    | .select t =>
      (match t.target with | .closed _ => true | _ => false) && decide (2 ≤ t.selections.length) &&
        (Select.ofQuery league (Template.SelectTemplate.query t .list)).toOption.any (good t)
    | .bulk _ => false

end Sample

namespace Template

/-- A text whose reading was computed to be good has such a template and such a statement. -/
theorem exists_of_tuple {text : String} {good : SelectTemplate → Select → Bool}
    (h : Sample.tuple text good = true) :
    ∃ t s, parse Sample.league text = .ok (.select t) ∧ 2 ≤ t.selections.length ∧
      (∀ constructor, t.target ≠ .constructor constructor) ∧
      Select.ofQuery Sample.league (SelectTemplate.query t .list) = .ok s ∧ good t s = true := by
  obtain ⟨template, hparse, h⟩ := any_toOption_iff.1 h
  cases template with
  | bulk => cases h
  | select t =>
    simp only [Bool.and_eq_true, decide_eq_true_eq, any_toOption_iff] at h
    obtain ⟨⟨hclosed, hseveral⟩, s, hs, hgood⟩ := h
    refine ⟨t, s, hparse, hseveral, fun constructor hconstructor => ?_, hs, hgood⟩
    rw [hconstructor] at hclosed
    cases hclosed

/-- The age and the team's id have different labels: the row is read, with both entries. -/
theorem tuple_entries_agesWithTeams :
    ∃ t c s results, parse Sample.league Sample.agesWithTeams = .ok (.select t) ∧
      2 ≤ t.selections.length ∧ (∀ constructor, t.target ≠ .constructor constructor) ∧
      MethodDeclaration.templateQuery t .list .entity = .ok (SelectTemplate.query t .list) ∧
      (SelectTemplate.query t .list).compile Sample.league = .ok c ∧
      Select.ofQuery Sample.league (SelectTemplate.query t .list) = .ok s ∧
      s.list.Fits (Sample.oneTuple ["age", "id"] [.integer 30, .integer 2]) ∧
      (t.selections.map (·.label)).Nodup ∧ s.list.Readable [.integer 30, .integer 2] ∧
      Mapping.mapRows Sample.league c.plan (Sample.oneTuple ["age", "id"] [.integer 30, .integer 2]) =
        .ok results ∧
      List.Forall₂ (fun values result => ∃ entries, result = .view (.mk "Tuple" entries) ∧
        s.list.Shows values entries) [[.integer 30, .integer 2]] results := by
  have hread : Sample.tuple Sample.agesWithTeams (fun t s =>
      decide ((t.selections.map (·.label)).Nodup ∧ s.list.labels = ["age", "id"] ∧
        s.list.columns.length = 2) &&
        (s.list.cells [.integer 30, .integer 2]).all fun cell =>
          (cell.1.read cell.2).toOption.isSome) = true := by decide +kernel
  obtain ⟨t, s, hparse, hseveral, hlist, hs, hgood⟩ := exists_of_tuple hread
  obtain ⟨hshape, hcells⟩ := Bool.and_eq_true_iff.1 hgood
  obtain ⟨hnodup, hlabels, hwidth⟩ := of_decide_eq_true hshape
  have hreadable : s.list.Readable [.integer 30, .integer 2] := fun cell hcell => by
    obtain ⟨v, hv⟩ := Option.isSome_iff_exists.1 (List.all_eq_true.1 hcells cell hcell)
    exact ⟨v, toOption_eq_some_iff.1 hv⟩
  have hfits : s.list.Fits (Sample.oneTuple ["age", "id"] [.integer 30, .integer 2]) :=
    ⟨hlabels.symm, List.forall_mem_singleton.2 hwidth.symm⟩
  have hcompile := Query.compile_eq_ok_iff.2 ⟨s, hs, rfl⟩
  obtain ⟨s', hs', _, _, hmaps⟩ :=
    tuple_entries hparse hseveral hlist (templateQuery_entity t .list) hcompile
  obtain rfl := Except.ok.inj (hs.symm.trans hs')
  obtain ⟨hshows, hmapped⟩ := hmaps _ hfits
  obtain ⟨results, hresults⟩ := hmapped hnodup (List.forall_mem_singleton.2 hreadable)
  exact ⟨t, _, s, results, hparse, hseveral, hlist, templateQuery_entity t .list, hcompile, hs, hfits,
    hnodup, hreadable, hresults, hshows results hresults⟩

/-- **Paths that end alike are told apart by no label**: the identifier of the team is selected, and the
    view shows that of the member instead. -/
theorem tuple_entry_lost :
    ∃ t s, parse Sample.league Sample.keysWithTeams = .ok (.select t) ∧
      2 ≤ t.selections.length ∧ (∀ constructor, t.target ≠ .constructor constructor) ∧
      t.selections.map (·.path) = [⟨["id"]⟩, ⟨["team", "id"]⟩] ∧
      Select.ofQuery Sample.league (SelectTemplate.query t .list) = .ok s ∧
      s.list.Fits (Sample.oneTuple ["id", "id"] [.integer 7, .integer 2]) ∧
      (∀ cell ∈ s.list.cells [.integer 7, .integer 2], cell.1.read cell.2 = .ok cell.2) ∧
      Mapping.mapRows Sample.league (s.compiled (SelectTemplate.query t .list)).plan
          (Sample.oneTuple ["id", "id"] [.integer 7, .integer 2]) =
        .ok [.view (.mk "Tuple" [("id", .value (.integer 7)), ("id", .value (.integer 7))])] := by
  have hread : Sample.tuple Sample.keysWithTeams (fun t s =>
      decide (t.selections.map (·.path) = [⟨["id"]⟩, ⟨["team", "id"]⟩] ∧
        t.selections.map (·.label) = ["id", "id"] ∧
        s.list.columns = [⟨⟨0, "member_id"⟩, "id", some .integer⟩,
          ⟨⟨1, "team_id"⟩, "id", some .integer⟩])) = true := by decide +kernel
  obtain ⟨t, s, hparse, hseveral, hlist, hs, hgood⟩ := exists_of_tuple hread
  obtain ⟨hpaths, hlabels, hcolumns⟩ := of_decide_eq_true hgood
  refine ⟨t, s, hparse, hseveral, hlist, hpaths, hs, ⟨?_, ?_⟩, ?_, ?_⟩
  · rw [SelectList.labels, hcolumns]
    rfl
  · rw [hcolumns]
    exact List.forall_mem_singleton.2 rfl
  · rw [SelectList.cells, hcolumns]
    exact List.forall_mem_cons.2 ⟨rfl, List.forall_mem_singleton.2 rfl⟩
  · have htarget := (target_of_several hparse hseveral hlist).2
    rw [hlabels] at htarget
    -- The two columns share a label, so the plan knows one type for both.
    have hplan : (s.compiled (SelectTemplate.query t .list)).plan =
        { target := .closed (.mk "Tuple" [.field "id", .field "id"]), entity := some s.root,
          fetched := s.list.fetched, types := [("id", .integer)] } := by
      show MappingPlan.mk t.target (some s.root) s.list.fetched s.list.types = _
      rw [htarget, SelectList.types, hcolumns]
      rfl
    rw [hplan]
    rfl

end Template

end EntityQuery
