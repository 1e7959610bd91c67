import EntityQuery.Proofs.Plan.Progress
import EntityQuery.Proofs.Result.Mapped
import EntityQuery.Proofs.Views.Shown

namespace EntityQuery

open JoinPlan

/-!
# Closed and open views agree

A closed view has only its own columns selected, an open view is computed from a whole record with
all to-one associations loaded.  Where both read the same fields they show the same
(`compile_views_agree`), since both show the database.

A whole record is more than a view asks for.  So an open view also fails where a value that it does
not use cannot be read, and where an association of the root cannot be joined, of which the closed
view knows nothing (`no_open_view`).
-/

/-! ### The same fields -/

/-- The field of the root that an accessor reads. -/
def Accessor.fieldName? : Accessor → Option String
  | .field name => some name
  | .nested _ _ => none

/-- The fields of the root that a closed view reads, in order. -/
def ClosedView.fieldNames (view : ClosedView) : List String :=
  view.accessors.filterMap Accessor.fieldName?

/-- An accessor of the name of a field that reads this field wherever a record has it. -/
def OpenAccessor.ReadsAs (field : String) (a : OpenAccessor) : Prop :=
  a.name = field ∧ ∀ r v, Record.get? r field = some v → a.compute r = .ok v

/-- An open view of the same name, whose accessors read the fields of a closed one from a record. -/
structure OpenView.Mirrors (opened : OpenView) (view : ClosedView) : Prop where
  name : opened.name = view.name
  accessors : List.Forall₂ OpenAccessor.ReadsAs view.fieldNames opened.accessors

/-- An accessor that reads a field, and nothing where there is none. -/
def OpenAccessor.ofField (name : String) : OpenAccessor :=
  ⟨name, fun r => .ok ((r.get? name).getD .null)⟩

/-- The open view that reads the fields of a closed one. -/
def ClosedView.opened (view : ClosedView) : OpenView :=
  ⟨view.name, view.fieldNames.map OpenAccessor.ofField⟩

/-- Opening a closed view gives one that mirrors it. -/
theorem ClosedView.opened_mirrors (view : ClosedView) : view.opened.Mirrors view := by
  refine ⟨rfl, ?_⟩
  unfold ClosedView.opened
  rw [List.forall₂_map_right_iff, List.forall₂_same]
  intro field _
  refine ⟨rfl, fun r v hfound => ?_⟩
  show Except.ok ((r.get? field).getD .null) = .ok v
  rw [hfound, Option.getD_some]

/-- Whether an entry is a value, not a nested view. -/
def ViewEntry.isValue : ViewEntry → Bool
  | .value _ => true
  | .nested _ => false

/-- A view without its nested views. -/
def View.flat (v : View) : View := .mk v.name (v.entries.filter (·.2.isValue))

/-- An entry has the value of a field of a record. -/
def ViewEntry.ReadsField (r : Record) (name : String) (entry : String × ViewEntry) : Prop :=
  ∃ v, r.get? name = some v ∧ entry = (name, .value v)

/-- The entry of an accessor is what the record has: a nested view is missing exactly if nothing is
    loaded for its association, and otherwise has the fields of the loaded record. -/
def Accessor.ReadsFrom (r : Record) (accessor : Accessor) (entry : String × ViewEntry) : Prop :=
  match accessor with
  | .field name => ViewEntry.ReadsField r name entry
  | .nested name view =>
    (r.link? name = some (.loaded none) ∧ entry = (name, .nested none)) ∨
      ∃ t, r.link? name = some (.loaded (some t)) ∧
        ∃ v : View, entry = (name, .nested (some v)) ∧ v.name = view.name ∧
          List.Forall₂ (fun accessor entry =>
            ∃ field, accessor = Accessor.field field ∧ ViewEntry.ReadsField t field entry)
            view.accessors v.entries

variable {schema : Schema} {root : Entity} {db : Database schema} {start : TableRow}

/-- What shows a field of a row is what a record of the row has. -/
theorem ViewEntry.ShowsField.reads {e : Entity} {row : TableRow} {name : String}
    {entry : String × ViewEntry} (h : ViewEntry.ShowsField e row name entry) {r : Record}
    (hr : r.Shows e row) : ViewEntry.ReadsField r name entry := by
  obtain ⟨f, v, hf, hholds, rfl⟩ := h
  obtain ⟨hmem, rfl⟩ := Entity.mem_of_fieldNamed? hf
  obtain ⟨v', hholds', hfound⟩ := hr f hmem
  exact ⟨v, hholds.unique hholds' ▸ hfound, rfl⟩

/-- **What shows a row is what a record of the row has**, accessor by accessor. -/
theorem Accessor.Shows.reads {accessor : Accessor} {entry : String × ViewEntry}
    (h : accessor.Shows db root start entry) {r : Record} (hr : r.Shows root start)
    (hlinks : r.ShowsLinks db root start) : accessor.ReadsFrom r entry := by
  cases accessor with
  | field name => exact ViewEntry.ShowsField.reads h hr
  | nested name view =>
    obtain ⟨hop, hhop, hentry⟩ := h
    have hlink := hlinks name hop hhop
    -- The nested view is absent exactly where the start has no partner.
    cases hpartner : db.partner hop start with
    | none =>
      simp only [hpartner] at hentry hlink
      exact .inl ⟨hlink, hentry⟩
    | some other =>
      simp only [hpartner] at hentry hlink
      obtain ⟨v, rfl, hname, hentries⟩ := hentry
      obtain ⟨t, hlink, ht⟩ := hlink
      refine .inr ⟨t, hlink, v, rfl, hname, hentries.imp fun accessor entry hshows => ?_⟩
      obtain ⟨field, rfl, hfield⟩ := hshows
      exact ⟨field, rfl, hfield.reads ht⟩

/-- Accessors that read the same fields compute the same entries, nested views left out. -/
theorem forall₂_computed {r : Record} {accessors : List Accessor}
    {entries : List (String × ViewEntry)} {opened : List OpenAccessor}
    (hentries : List.Forall₂ (Accessor.ReadsFrom r) accessors entries)
    (hopened : List.Forall₂ OpenAccessor.ReadsAs (accessors.filterMap Accessor.fieldName?) opened) :
    List.Forall₂ (fun (a : OpenAccessor) entry =>
      (do return (a.name, ViewEntry.value (← a.compute r)) : Except ReadFault _) = .ok entry)
      opened (entries.filter (·.2.isValue)) := by
  induction hentries generalizing opened with
  | nil =>
    cases hopened
    exact .nil
  | @cons accessor entry accessors entries hentry _ ih =>
    cases accessor with
    | field name =>
      obtain ⟨v, hfound, rfl⟩ := hentry
      cases hopened with
      | cons hfirst hrest =>
        obtain ⟨rfl, hcompute⟩ := hfirst
        refine .cons ?_ (ih hrest)
        rw [hcompute r v hfound]
        rfl
    | nested name nested =>
      -- The open view has nothing for a nested one.
      have hskipped : entry.2.isValue = false := by
        rcases hentry with ⟨_, rfl⟩ | ⟨_, _, _, rfl, _⟩ <;> rfl
      rw [List.filter_cons_of_neg (by simp [hskipped])]
      exact ih hopened

/-- An open view that reads the same fields is the closed view without its nested views. -/
theorem openView_of_mirrors {opened : OpenView} {view : ClosedView} (h : opened.Mirrors view)
    {r : Record} {v : View} (hname : v.name = view.name)
    (hentries : List.Forall₂ (Accessor.ReadsFrom r) view.accessors v.entries) :
    Mapping.openView opened r = .ok v.flat := by
  unfold Mapping.openView
  rw [listMapM_eq_ok_iff.2 (forall₂_computed hentries h.accessors), ok_bind, h.name, ← hname]
  rfl

/-! ### Whole answers -/

/-- Answers are mapped row by row. -/
theorem Select.mapRows_answer {γ : Type} {M : Meaning} {s : Select} {plan : MappingPlan}
    {items : List γ} {row : γ → JoinedRow} {result : γ → Projected}
    (hrows : s.rows M db s.plan = items.map row)
    (hcheck : Mapping.checkColumns plan s.list.labels = .ok ())
    (hread : ∀ x ∈ items, ∃ values, s.list.answer (row x) = .ok values ∧
      Mapping.readRow schema plan ⟨s.list.labels, values⟩ = .ok (result x)) :
    (s.answer M db >>= Mapping.mapRows schema plan) = .ok (items.map result) := by
  -- Each row of the items is answered and read; the answer is all of them.
  obtain ⟨answers, hanswers⟩ := exists_forall₂ hread
  have hanswer : s.answer M db = .ok ⟨s.list.labels, answers⟩ := by
    have hall : (items.map row).mapM s.list.answer = .ok answers := by
      rw [listMapM_eq_ok_iff, List.forall₂_map_left_iff]
      exact hanswers.imp fun _ _ => And.left
    unfold Select.answer
    rw [hrows, hall]
    rfl
  rw [hanswer, ok_bind, Mapping.mapRows_eq_ok_iff]
  refine ⟨hcheck, ?_⟩
  rw [RowSet.toRows, List.forall₂_map_left_iff, List.forall₂_map_right_iff]
  exact hanswers.flip.imp fun _ _ => And.right

/-- What two queries make of one row of the root: the closed view and the record behind the open
    one. -/
structure ViewedRow where
  closedRow : JoinedRow
  openRow : JoinedRow
  view : View
  record : Record

/-- The selects `s` of a closed view and `s'` of an open one read a row as they should. -/
structure ViewedRow.Agrees (schema : Schema) (q : Query) (view : ClosedView) (opened : OpenView)
    (s s' : Select) (x : ViewedRow) : Prop where
  root : ∃ start, x.closedRow 0 = some start ∧ x.openRow 0 = some start
  order : s.sortKey x.closedRow = s'.sortKey x.openRow
  closed : ∃ values, s.list.answer x.closedRow = .ok values ∧
    Mapping.readRow schema (s.compiled q).plan ⟨s.list.labels, values⟩ = .ok (.view x.view)
  opened : ∃ values, s'.list.answer x.openRow = .ok values ∧
    Mapping.readRow schema (s'.compiled (q.withTarget (.opened opened))).plan
      ⟨s'.list.labels, values⟩ = .ok (.view x.view.flat)
  record : ∃ values, s'.list.answer x.openRow = .ok values ∧
    Mapping.readRow schema (s'.compiled (q.withTarget .entity)).plan ⟨s'.list.labels, values⟩ =
      .ok (.record x.record)
  name : x.view.name = view.name
  entries : List.Forall₂ (Accessor.ReadsFrom x.record) view.accessors x.view.entries

variable {q : Query} {view : ClosedView} {opened : OpenView} {s s' : Select}

/-- **One row of the root** is read alike by both queries. -/
theorem exists_viewedRow (htarget : q.target = .closed view) (hselections : q.selections = [])
    (hnames : ∀ e ∈ schema.entities, e.PlainNames) (htargets : schema.Targets q.entity)
    (hroot : q.entity ∈ schema.entities) (hmirrors : opened.Mirrors view)
    (hs : Select.ofQuery schema q = .ok s)
    (hs' : Select.ofQuery schema (q.withTarget (.opened opened)) = .ok s') (hkeys : db.KeysLead)
    (hstart : start ∈ db.rows q.entity.table) (hreadable : db.ReadableFrom q.entity start)
    {row row' : JoinedRow} (hfollows : Follows db q.entity start s.plan.joins row)
    (hfollows' : Follows db q.entity start s'.plan.joins row') :
    ∃ x : ViewedRow, x.closedRow = row ∧ x.openRow = row' ∧ x.Agrees schema q view opened s s' := by
  have hall : ∀ e ∈ q.entity :: schema.entities, e.PlainNames :=
    List.forall_mem_cons.2 ⟨hnames _ hroot, hnames⟩
  obtain ⟨values, closedRow, v, hvalues, hcoerced, hview, hname, hshows⟩ :=
    exists_closedView_shows htarget hselections hall hs hfollows hreadable htargets hkeys hroot hstart
  obtain ⟨values', openRow, r, hvalues', hcoerced', hrecord, hfields, hlinks⟩ :=
    exists_planRecord_shows (q := q.withTarget (.opened opened)) rfl hall hs' hfollows' hreadable
  -- The entries and the record are both of this start, so one can be read from the other.
  have hentries : List.Forall₂ (Accessor.ReadsFrom r) view.accessors v.entries :=
    hshows.imp fun _ _ hshown => hshown.reads hfields hlinks
  have hplan : (s.compiled q).plan.target = .closed view := htarget
  refine ⟨⟨row, row', v, r⟩, rfl, rfl, ⟨start, hfollows.atRoot, hfollows'.atRoot⟩, ?_,
    ⟨values, hvalues, ?_⟩, ⟨values', hvalues', ?_⟩, ⟨values', hvalues', ?_⟩, hname, hentries⟩
  · -- Both keys are those of the query.
    calc s.sortKey row = q.sortKey db start :=
          (Select.plannedFor_of_ofQuery hs).sortKey_eq hfollows
      _ = s'.sortKey row' := ((Select.plannedFor_of_ofQuery hs').sortKey_eq hfollows').symm
  · show (Mapping.coerceRow s.list.types _ >>= _) = _
    rw [hcoerced, ok_bind, Mapping.mapRow, hplan]
    dsimp only
    rw [hview]
    rfl
  · show (Mapping.coerceRow s'.list.types _ >>= fun row =>
      Mapping.planRecord schema (s'.compiled (q.withTarget (.opened opened))).plan row >>= fun r =>
        Mapping.openView opened r >>= fun v => pure (Projected.view v)) = _
    rw [hcoerced', ok_bind, hrecord, ok_bind, openView_of_mirrors hmirrors hname hentries]
    rfl
  · show (Mapping.coerceRow s'.list.types _ >>= fun row =>
      Mapping.planRecord schema (s'.compiled (q.withTarget (.opened opened))).plan row >>= fun r =>
        pure (Projected.record r)) = _
    rw [hcoerced', ok_bind, hrecord]
    rfl

/-- **Closed and open views agree.**  If a query for a closed view compiles, so does the query for
    the open view that reads the same fields, as long as the to-one associations of the root have
    names that a path can hold.  Over a database whose foreign keys lead to rows, and where the rows
    that the predicate holds of can be read with those that they point at, both select the same rows
    of the root, ordered by the same values.  Both answers are mapped: the open views are the closed
    ones without their nested views, and each closed view is what the record behind the open one has;
    a nested view is missing exactly if nothing is loaded for its association. -/
theorem compile_views_agree {entities : List Entity} {c : Compiled}
    (hbuilt : Schema.build entities = .ok schema) (hroot : q.entity ∈ schema.entities)
    (hnames : ∀ e ∈ schema.entities, e.PlainNames)
    (hnamed : ∀ a ∈ q.entity.associations, a.isToOne = true → a.name ≠ "")
    (htarget : q.target = .closed view) (hselections : q.selections = [])
    (hdistinct : q.distinct = false) (hmirrors : opened.Mirrors view)
    (hc : q.compile schema = .ok c) (M : Meaning) (db : Database schema) (hkeys : db.KeysLead)
    (hreadable : ∀ start ∈ db.rows q.entity.table, q.holds M db start = true →
      db.ReadableFrom q.entity start) :
    ∃ s s' c' views records, Select.ofQuery schema q = .ok s ∧ c = s.compiled q ∧
      Select.ofQuery schema (q.withTarget (.opened opened)) = .ok s' ∧
      (q.withTarget (.opened opened)).compile schema = .ok c' ∧
      s.roots M db s.plan = s'.roots M db s'.plan ∧
      (s.rows M db s.plan).map s.sortKey = (s'.rows M db s'.plan).map s'.sortKey ∧
      (s.answer M db >>= Mapping.mapRows schema c.plan) = .ok (views.map .view) ∧
      (s'.answer M db >>= Mapping.mapRows schema c'.plan) =
        .ok (views.map fun v => .view v.flat) ∧
      (s'.answer M db >>= Mapping.mapRows schema { c'.plan with target := .entity }) =
        .ok (records.map .record) ∧
      List.Forall₂ (fun v r => v.name = view.name ∧
        List.Forall₂ (Accessor.ReadsFrom r) view.accessors v.entries) views records := by
  obtain ⟨s, hs, hcompiled⟩ := bind_eq_ok_iff.1 hc
  obtain rfl := pure_eq_ok_iff.1 hcompiled
  have htargets := Schema.targets_of_build hbuilt q.entity hroot
  obtain ⟨s', hs'⟩ := Select.exists_ofQuery hs (.opened opened)
    (SelectList.exists_run_ofEntity htargets (hnames _ hroot) hnamed)
  have hplanned := Select.plannedFor_of_ofQuery hs
  have hplanned' := Select.plannedFor_of_ofQuery hs'
  -- The two queries differ in the target only, so their rows are of the same starts.
  have hsame : q.SameRows (q.withTarget (.opened opened)) :=
    ⟨rfl, rfl, ⟨hdistinct, hdistinct⟩, q.joins, [], [], by simp, by simp [Query.withTarget], nofun⟩
  -- Row by row, the two sides agree on one list of viewed rows.
  obtain ⟨xs, hclosed, hopen, hagrees⟩ := exists_sides
    (Select.forall₂_rows M db hsame hplanned hplanned')
    (P := ViewedRow.Agrees schema q view opened s s')
    (f := ViewedRow.closedRow) (g := ViewedRow.openRow)
    fun row row' ⟨start, hstart, hholds, hfollows, hfollows'⟩ =>
      exists_viewedRow htarget hselections hnames htargets hroot hmirrors hs hs' hkeys hstart
        (hreadable start hstart hholds) hfollows hfollows'
  have hplan : (s.compiled q).plan.target = .closed view := htarget
  refine ⟨s, s', s'.compiled (q.withTarget (.opened opened)), xs.map ViewedRow.view,
    xs.map ViewedRow.record, hs, rfl, hs', ?_, ?_, ?_, ?_, ?_, ?_, ?_⟩
  · unfold Query.compile
    rw [hs']
    rfl
  · unfold Select.roots
    rw [hclosed, hopen, List.filterMap_map, List.filterMap_map]
    refine List.filterMap_congr fun x hx => ?_
    obtain ⟨start, hstart, hstart'⟩ := (hagrees x hx).root
    simp only [Function.comp_apply, hstart, hstart']
  · rw [hclosed, hopen, List.map_map, List.map_map]
    exact List.map_congr_left fun x hx => (hagrees x hx).order
  · rw [List.map_map]
    refine Select.mapRows_answer hclosed ?_ fun x hx => (hagrees x hx).closed
    rw [Mapping.checkColumns, hplan]
  · rw [List.map_map]
    exact Select.mapRows_answer hopen rfl fun x hx => (hagrees x hx).opened
  · rw [List.map_map]
    exact Select.mapRows_answer hopen rfl fun x hx => (hagrees x hx).record
  · rw [List.forall₂_map_left_iff, List.forall₂_map_right_iff, List.forall₂_same]
    exact fun x hx => ⟨(hagrees x hx).name, (hagrees x hx).entries⟩

namespace Sample

/-- The age of a member and the identifier of its team. -/
def ageAndTeam : ClosedView :=
  .mk "AgeAndTeam" [.field "age", .nested "team" (.mk "TeamId" [.field "id"])]

/-- Grown members, the oldest first. -/
def grownMembers : Query where
  entity := member
  shape := .list
  predicate := some (.comparison ⟨["age"]⟩ .greaterThan (.literal (.integer 25)))
  target := .closed ageAndTeam
  order := [⟨⟨["age"]⟩, .descending⟩]

/-- The same query with the view opened. -/
def grownMembersOpened : Query := grownMembers.withTarget (.opened ageAndTeam.opened)

end Sample

/-- The grown members, seen closed and open. -/
theorem compile_views_agree_grownMembers :
    ∃ c, Sample.grownMembers.compile Sample.league = .ok c ∧
      ∃ s s' : Select, ∃ c' views records,
        Select.ofQuery Sample.league Sample.grownMembers = .ok s ∧
        Select.ofQuery Sample.league Sample.grownMembersOpened = .ok s' ∧
        Sample.grownMembersOpened.compile Sample.league = .ok c' ∧
        (s.answer Sample.meaning Sample.database >>= Mapping.mapRows Sample.league c.plan) =
          .ok (views.map .view) ∧
        (s'.answer Sample.meaning Sample.database >>= Mapping.mapRows Sample.league c'.plan) =
          .ok (views.map fun v => .view v.flat) ∧
        List.Forall₂ (fun v r => v.name = "AgeAndTeam" ∧
          List.Forall₂ (Accessor.ReadsFrom r) Sample.ageAndTeam.accessors v.entries)
          views records := by
  have hcompiles : ∃ c, Sample.grownMembers.compile Sample.league = .ok c := ⟨_, by rfl⟩
  obtain ⟨c, hc⟩ := hcompiles
  have hbuilt : Schema.build [Sample.team, Sample.member] = .ok Sample.league := by decide
  have hreadable : ∀ start ∈ Sample.database.rows "member",
      Sample.grownMembers.holds Sample.meaning Sample.database start = true →
        Sample.database.ReadableFrom Sample.member start := by
    decide
  obtain ⟨s, s', c', views, records, hs, _, hs', hc', _, _, hclosed, hopened, _, hshown⟩ :=
    compile_views_agree hbuilt (by decide) (by decide) (by decide) rfl rfl rfl
      Sample.ageAndTeam.opened_mirrors hc Sample.meaning Sample.database (by decide) hreadable
  exact ⟨c, hc, s, s', c', views, records, hs, hs', hc', hclosed, hopened, hshown⟩

namespace Sample

/-- Guests may have told when they were born. -/
def guest : Entity :=
  (({ name := "Guest", table := "guest" } : Entity).withId "id" "guest_id").withFieldIn
    "born" "born" .date true

/-- A schema of guests alone. -/
def guests : Schema := ⟨[guest]⟩

/-- A guest of whom a text is stored that is no date. -/
def guestBook : Database guests where
  rows
    | "guest" => [fun column => if column = "guest_id" then .integer 1 else
        if column = "born" then .text [] else .null]
    | _ => []
  ids_ne_null e he key hkey := by
    obtain rfl := List.mem_singleton.1 he
    obtain rfl : "guest_id" = key := Except.ok.inj hkey
    decide
  ids_unique e he key hkey := by
    obtain rfl := List.mem_singleton.1 he
    exact List.pairwise_singleton _ _

/-- An entity that points at itself by an association without a name. -/
def part : Entity :=
  (({ name := "Part", table := "part" } : Entity).withId "id" "part_id").belongsTo
    "" "Part" "whole_id"

/-- A schema of parts alone. -/
def parts : Schema := ⟨[part]⟩

/-- A view of the id. -/
def idOnly : ClosedView := .mk "IdOnly" [.field "id"]

/-- The identifiers of all rows of an entity. -/
def idsOf (e : Entity) : Query where
  entity := e
  shape := .list
  target := .closed idOnly

/-- The ids with the view opened. -/
def openedIdsOf (e : Entity) : Query := (idsOf e).withTarget (.opened idOnly.opened)

end Sample

/-- **An open view needs more than it shows.**  One query has its closed view read and fails for the
    open one, by a value that neither of them shows; another does not even compile for the open
    one, as no path can lead to an association without a name. -/
theorem no_open_view :
    (Schema.build [Sample.guest] = .ok Sample.guests ∧ Sample.guest.PlainNames ∧
      Sample.guestBook.KeysLead ∧
      ∃ s c s' c', Select.ofQuery Sample.guests (Sample.idsOf Sample.guest) = .ok s ∧
        (Sample.idsOf Sample.guest).compile Sample.guests = .ok c ∧
        Select.ofQuery Sample.guests (Sample.openedIdsOf Sample.guest) = .ok s' ∧
        (Sample.openedIdsOf Sample.guest).compile Sample.guests = .ok c' ∧
        (s.answer Sample.meaning Sample.guestBook >>= Mapping.mapRows Sample.guests c.plan) =
          .ok [.view (.mk "IdOnly" [("id", .value (.integer 1))])] ∧
        (s'.answer Sample.meaning Sample.guestBook >>= Mapping.mapRows Sample.guests c'.plan) =
          .error (.invalidDate "" .tooShort)) ∧
    (Schema.build [Sample.part] = .ok Sample.parts ∧ Sample.part.PlainNames ∧
      (∃ c, (Sample.idsOf Sample.part).compile Sample.parts = .ok c) ∧
      ∀ c, (Sample.openedIdsOf Sample.part).compile Sample.parts ≠ .ok c) := by
  refine ⟨⟨by decide, by decide, by decide, ?_⟩, by decide, by decide, ⟨_, rfl⟩, nofun⟩
  exact ⟨_, _, _, _, rfl, rfl, rfl, rfl, rfl, rfl⟩

end EntityQuery
