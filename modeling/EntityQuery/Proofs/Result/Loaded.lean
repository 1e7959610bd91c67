import EntityQuery.Proofs.Plan.Fetching
import EntityQuery.Proofs.Result.Cells
import EntityQuery.Proofs.Result.Mapped

namespace EntityQuery

open JoinPlan

/-!
# Loaded associations

What a fetching join puts into the records of a query.  The select list and the mapping look at the
associations of the root only, so

* an association of the root that some join fetches is loaded in every record
  (`fetched_associations_loaded`), because it is among the fetched ones of the select list
  (`Select.fetched_of_fetches`);
* behind it nothing is loaded, whatever is fetched there: the record of a fetched association is
  `Record.Shallow`, and reading on from it ends with nothing or with a fault
  (`nested_fetch_detached`).
-/

variable {schema : Schema} {root : Entity} {plan plan' : JoinPlan} {q : Query} {s : Select}

/-! ### Reading records step by step -/

namespace Record

/-- Reads to-one associations one after the other, as far as there is anything. -/
def follow (r : Record) : List String → Except ReadFault (Option Record)
  | [] => .ok (some r)
  | name :: rest => do
    match ← r.association name with
    | none => return none
    | some other => other.follow rest

/-- No association of the record holds another record. -/
def Shallow (r : Record) : Prop :=
  ∀ name, r.association name = .ok none ∨ r.association name = .error (.detached r.entity name)

/-- Following one step is reading that association. -/
theorem follow_single (r : Record) (name : String) : r.follow [name] = r.association name := by
  cases h : r.association name with
  | error fault => simp only [follow, h]; rfl
  | ok found => cases found <;> simp only [follow, h] <;> rfl

/-- Nothing can be read behind a shallow record. -/
theorem Shallow.follow_cons {r : Record} (h : r.Shallow) (name : String) (rest : List String) :
    r.follow (name :: rest) = .ok none ∨
      r.follow (name :: rest) = .error (.detached r.entity name) := by
  rcases h name with hnone | hfault
  · exact .inl (by simp only [follow, hnone]; rfl)
  · exact .inr (by simp only [follow, hfault]; rfl)

/-- A record whose links are absent or unresolved is shallow. -/
theorem shallow_of_links {r : Record}
    (h : ∀ link ∈ r.links, link.2 = .loaded none ∨ ∃ target key, link.2 = .unresolved target key) :
    r.Shallow := by
  intro name
  unfold association link?
  cases hfound : r.links.lookup name with
  | none => exact .inr rfl
  | some link =>
    -- What is found under a name is one of the links.
    obtain ⟨l₁, l₂, hlinks, _⟩ := List.lookup_eq_some_iff.1 hfound
    have hmem : (name, link) ∈ r.links := by
      rw [hlinks]
      exact List.mem_append_right _ (.head _)
    rcases h _ hmem with rfl | ⟨target, key, rfl⟩
    · exact .inl rfl
    · exact .inr rfl

end Record

namespace Mapping

/-- A key gives an absent link or an unresolved one. -/
theorem linkOfKey_eq (target : String) (key : Option Value) :
    linkOfKey target key = .loaded none ∨ ∃ key', linkOfKey target key = .unresolved target key' := by
  unfold linkOfKey
  split
  · exact .inl rfl
  · exact .inr ⟨_, rfl⟩
  · exact .inr ⟨_, rfl⟩

/-- **Fetched records are shallow**: the associations of a fetched record are not loaded, and of a
    foreign key it can at most be known that it is null. -/
theorem shallow_of_fetchedRecord {association : String} {e : Entity} {row : Row} {r : Record}
    (h : fetchedRecord association e row = .ok r) : r.Shallow := by
  unfold fetchedRecord at h
  obtain ⟨fields, _, h⟩ := bind_eq_ok_iff.1 h
  cases h
  refine Record.shallow_of_links fun link hlink => ?_
  obtain ⟨a, _, rfl⟩ := List.mem_map.1 hlink
  dsimp only
  split
  · exact (linkOfKey_eq _ _).imp_right fun ⟨key, hkey⟩ => ⟨a.target, key, hkey⟩
  · exact .inr ⟨_, _, rfl⟩

/-- The link of a fetched association is loaded, and what it holds is shallow. -/
theorem fetchedLink_eq_ok {row : Row} {a : Association} {link : Link}
    (h : fetchedLink schema row a = .ok link) :
    ∃ found, link = .loaded found ∧ ∀ other ∈ found, other.Shallow := by
  unfold fetchedLink at h
  split at h
  · cases h
  · split at h
    · cases h
      exact ⟨none, rfl, nofun⟩
    · cases h
      exact ⟨none, rfl, nofun⟩
    -- The record that was read with the row is shallow in its turn.
    · obtain ⟨other, hother, h⟩ := bind_eq_ok_iff.1 h
      cases h
      refine ⟨some other, rfl, fun _ hmem => ?_⟩
      obtain rfl := Option.mem_some.1 hmem
      exact shallow_of_fetchedRecord hother

/-- Entries that stand for named items are found as the first item of that name is. -/
theorem exists_lookup_of_find? {α β : Type} {R : α → String × β → Prop} (name : α → String)
    (hR : ∀ {a entry}, R a entry → entry.1 = name a) {as : List α} {entries : List (String × β)}
    (h : List.Forall₂ R as entries) {key : String} {a : α}
    (ha : as.find? (fun a => name a == key) = some a) :
    ∃ entry, R a entry ∧ entries.lookup key = some entry.2 := by
  induction h with
  | nil => cases ha
  | @cons x entry as entries hx _ ih =>
    rw [lookup_cons_ite, hR hx]
    by_cases hkey : name x = key
    · rw [List.find?_cons_of_pos (p := fun a => name a == key) (beq_iff_eq.2 hkey)] at ha
      obtain rfl := Option.some.inj ha
      exact ⟨entry, hx, if_pos hkey.symm⟩
    · rw [List.find?_cons_of_neg (p := fun a => name a == key) (by simpa using hkey)] at ha
      rw [if_neg (Ne.symm hkey)]
      exact ih ha

/-- A link stands under the name of its association. -/
theorem rootLink_fst {fetched : List String} {row : Row} {id : Value} {a : Association}
    {entry : String × Link} (h : rootLink schema fetched row id a = .ok entry) :
    entry.1 = a.name := by
  unfold rootLink at h
  split at h
  · cases h
    rfl
  · split at h
    · obtain ⟨_, _, h⟩ := bind_eq_ok_iff.1 h
      cases h
      rfl
    · cases h
      rfl

/-- **A fetched association of the root is loaded**, and what it holds is shallow. -/
theorem association_of_rootRecord {fetched : List String} {row : Row} {r : Record}
    (h : rootRecord schema fetched root row = .ok r) {name : String} {a : Association}
    (ha : root.associationNamed? name = some a) (htoOne : a.isToOne = true) (hname : name ∈ fetched) :
    ∃ found, r.association name = .ok found ∧ ∀ other ∈ found, other.Shallow := by
  unfold rootRecord at h
  obtain ⟨fields, _, h⟩ := bind_eq_ok_iff.1 h
  obtain ⟨links, hlinks, h⟩ := bind_eq_ok_iff.1 h
  cases h
  rw [listMapM_eq_ok_iff] at hlinks
  obtain ⟨entry, hentry, hlookup⟩ :=
    exists_lookup_of_find? Association.name rootLink_fst hlinks ha
  obtain ⟨column, hkind⟩ := Association.exists_kind_of_isToOne htoOne
  have hcontains : fetched.contains a.name = true := by
    rw [(Entity.mem_of_associationNamed? ha).2, List.contains_iff_mem]
    exact hname
  -- A fetched association is read as a record, or as none.
  simp only [rootLink, hkind, hcontains, if_true] at hentry
  obtain ⟨link, hlink, hentry⟩ := bind_eq_ok_iff.1 hentry
  cases hentry
  obtain ⟨found, rfl, hshallow⟩ := fetchedLink_eq_ok hlink
  refine ⟨found, ?_, hshallow⟩
  unfold Record.association Record.link? Record.links
  rw [hlookup]

end Mapping

/-! ### Fetched associations of a select list -/

namespace SelectList

open Planning

/-- An association that the plan loads is among the fetched ones, whatever else has its name. -/
theorem mem_fetched_of_loads {fetchAll : Bool} {as : List Association} {lists : List SelectList}
    (h : (as.mapM (associationColumns schema root fetchAll)).run plan = .ok (lists, plan'))
    {a : Association} (ha : a ∈ as) (hloads : loads plan a = true) :
    a.name ∈ lists.flatMap fetched := by
  induction as generalizing plan lists with
  | nil => cases ha
  | cons b as ih =>
    rw [List.mapM_cons] at h
    simp only [run_bind_iff, run_pure_iff] at h
    obtain ⟨list, mid, hitem, rest, last, hrest, rfl, rfl⟩ := h
    obtain ⟨_, hfetched, hmid, hother⟩ := run_associationColumns_eq hitem
    rw [List.flatMap_cons, List.mem_append]
    by_cases hname : a.name = b.name
    · -- The first association of the name is the one that is fetched.
      have hsame : loads plan b = loads plan a := by rw [loads, ← hname, ← loads]
      rw [hsame, hloads, Bool.or_true] at hmid
      rw [hfetched, if_pos hmid, hname]
      exact .inl (List.mem_singleton_self _)
    · have hstays : loads mid a = loads plan a :=
        congrArg Option.isSome (hother _ fun heq => hname (single_injective heq))
      rcases List.mem_cons.1 ha with rfl | ha
      · exact absurd rfl hname
      · exact .inr (ih hrest ha (hstays.trans hloads))

end SelectList

namespace Select

open Planning

/-- **Every fetching join on an association of the root is carried out.** -/
theorem fetched_of_fetches (htarget : q.target = .entity) (h : Select.ofQuery schema q = .ok s)
    {name : String} (hfetches : q.fetches (.single name) = true) :
    ∃ a, q.entity.associationNamed? name = some a ∧ a.isToOne = true ∧ name ∈ s.list.fetched := by
  obtain ⟨deciding, middle, hjoins, hlist, _⟩ := ofQuery_eq_ok h
  have hloaded : (deciding.fetching? (.single name)).isSome = true :=
    (fetching?_planJoins hjoins).trans hfetches
  obtain ⟨⟨table, target⟩, hfetching⟩ := Option.isSome_iff_exists.1 hloaded
  obtain ⟨join, hjoin, hpath, _⟩ := fetching?_eq_some hfetching
  -- A table is joined for it, so it is an association of the root and leads to one record.
  have hplanned : Planned schema q.entity deciding.joins := (run_planJoins hjoins).planned .nil
  obtain ⟨a, ha, hforeignKey, _⟩ := hplanned.association_of_single hjoin hpath
  obtain ⟨hmem, rfl⟩ := Entity.mem_of_associationNamed? ha
  have htoOne : a.isToOne = true := by rw [Association.isToOne, hforeignKey, Option.isSome_some]
  refine ⟨a, ha, htoOne, ?_⟩
  unfold SelectList.ofQuery at hlist
  rw [htarget] at hlist
  unfold SelectList.ofEntity at hlist
  simp only [run_bind_iff, run_pure_iff] at hlist
  obtain ⟨lists, _, hlists, hmade, rfl⟩ := hlist
  rw [← hmade]
  exact SelectList.mem_fetched_of_loads hlists (List.mem_filter.2 ⟨hmem, htoOne⟩) hloaded

end Select

/-- **Fetched associations are loaded.**  If a query for records fetches an association of the root,
    reading it from any record that its rows are mapped to never meets a fault.  Whatever is
    fetched behind it, reading on never finds a record: it ends with nothing, or with a fault that
    names the next association. -/
theorem fetched_associations_loaded {c : Compiled} (h : q.compile schema = .ok c)
    (htarget : q.target = .entity) {name : String} (hfetches : q.fetches (.single name) = true)
    {rows : RowSet} {results : List Projected}
    (hmapped : Mapping.mapRows schema c.plan rows = .ok results) :
    ∀ result ∈ results, ∃ r found, result = .record r ∧ r.follow [name] = .ok found ∧
      ∀ next rest, r.follow (name :: next :: rest) = .ok none ∨
        ∃ entity, r.follow (name :: next :: rest) = .error (.detached entity next) := by
  obtain ⟨s, hs, h⟩ := bind_eq_ok_iff.1 h
  cases h
  have hplanned := Select.plannedFor_of_ofQuery hs
  obtain ⟨a, ha, htoOne, hname⟩ := Select.fetched_of_fetches htarget hs hfetches
  obtain ⟨_, hrows⟩ := Mapping.mapRows_eq_ok_iff.1 hmapped
  intro result hresult
  obtain ⟨row, _, hread⟩ := exists_left_of_forall₂ hrows hresult
  unfold Mapping.readRow at hread
  obtain ⟨row', _, hread⟩ := bind_eq_ok_iff.1 hread
  have hsteps : Mapping.mapRow schema (s.compiled q).plan row' = do
      return .record (← Mapping.rootRecord schema s.list.fetched q.entity row') := by
    simp only [Mapping.mapRow, Select.compiled, htarget, Mapping.planRecord, hplanned.root]
  rw [hsteps] at hread
  obtain ⟨r, hr, hread⟩ := bind_eq_ok_iff.1 hread
  cases hread
  obtain ⟨found, hfound, hshallow⟩ := Mapping.association_of_rootRecord hr ha htoOne hname
  refine ⟨r, found, rfl, (r.follow_single name).trans hfound, fun next rest => ?_⟩
  -- An absent record ends the way; one that is there is shallow, so the next step finds nothing loaded.
  cases found with
  | none => exact .inl (by simp only [Record.follow, hfound]; rfl)
  | some other =>
    have hstep : r.follow (name :: next :: rest) = other.follow (next :: rest) := by
      simp only [Record.follow, hfound]
      rfl
    rw [hstep]
    exact ((hshallow other rfl).follow_cons next rest).imp_right fun hfault => ⟨_, hfault⟩

namespace Sample

/-- Members with their teams and, as far as the joins say, with the parents of these. -/
def membersWithParents : Query where
  entity := member
  shape := .list
  joins := [⟨⟨["team"]⟩, .inner, true⟩, ⟨⟨["team", "parent"]⟩, .inner, true⟩]

/-- The second member, whose team is a part of the first one. -/
def memberWithParentRows : RowSet :=
  ⟨["id", "age", "team.id", "team.@parent"],
    [[.integer 2, .integer 30, .integer 2, .integer 1]]⟩

end Sample

/-- A member with its team and the team's parent, of which only the team is loaded. -/
theorem fetched_associations_loaded_membersWithParents :
    ∃ c r, Sample.membersWithParents.compile Sample.league = .ok c ∧
      Mapping.mapRows Sample.league c.plan Sample.memberWithParentRows = .ok [.record r] ∧
      ∃ found, r.follow ["team"] = .ok found := by
  have hmaps : ∃ c r, Sample.membersWithParents.compile Sample.league = .ok c ∧
      Mapping.mapRows Sample.league c.plan Sample.memberWithParentRows = .ok [.record r] :=
    ⟨_, _, rfl, rfl⟩
  obtain ⟨c, r, hc, hmapped⟩ := hmaps
  have hfetches : Sample.membersWithParents.fetches (.single "team") = true := by decide
  obtain ⟨r', found, hrecord, hfound, _⟩ :=
    fetched_associations_loaded hc rfl hfetches hmapped (.record r) (List.mem_singleton_self _)
  obtain rfl := Projected.record.inj hrecord
  exact ⟨c, r, hc, hmapped, found, hfound⟩

/-- **Fetching further has no effect.**  The parent of the team is fetched as the team is, the row has
    all the columns that are selected, and still the parent is not loaded. -/
theorem nested_fetch_detached :
    ∃ s r, Select.ofQuery Sample.league Sample.membersWithParents = .ok s ∧
      Sample.memberWithParentRows.columns = s.list.columns.map SelectColumn.label ∧
      Mapping.mapRows Sample.league (s.compiled Sample.membersWithParents).plan
        Sample.memberWithParentRows = .ok [.record r] ∧
      (∀ path ∈ [["team"], ["team", "parent"]], Sample.membersWithParents.fetches ⟨path⟩ = true) ∧
      r.follow ["team", "parent"] = .error (.detached "Team" "parent") :=
  ⟨_, _, rfl, rfl, rfl, by decide, rfl⟩

end EntityQuery
