import EntityQuery.Proofs.Repository.Resolving
import EntityQuery.Proofs.Result.Told

namespace EntityQuery

/-!
# Absent associations

Resolving leaves a to-one association without a record for three reasons: the mapping knew that the
foreign key is null, the store had no row for the key, or nothing was known of the key.  The first two
tell the truth about the row that the record was read from (`Repository.resolved_absent`).  The third
does not: a key that was not selected is taken for a null one, and the association counts as absent
without a question to the store (`Repository.resolveInPlace_of_unread`), which may well hold the row
(`Repository.absence_invented`).
-/

variable {schema : Schema} {σ : Type} {e : Entity} {start : TableRow} {name : String}

/-! ### Stores that hold a database -/

/-- What equals the stored form of a value that is given for a slot is found equal to it. -/
def Meaning.Follows (M : Meaning) (args : CallArguments) : Prop :=
  ∀ slot v stored value, args.lookup slot = .ok v → Value.ofStored stored = .ok v →
    Stored.Equals value stored → M.compare .equals value (.slot slot) = .yes

/-- The store holds the rows of a database as far as they are looked up by their identifiers: where it
    has no row in answer to the query for an identifier, that query selects none. -/
def Store.Finds (store : Store σ) (db : Database schema) : Prop :=
  ∀ target ∈ schema.entities, ∀ s, Select.ofQuery schema (Repository.byId target .single) = .ok s →
    ∀ (id : Value) window bound directives state columns state',
      s.content.window (some 2) 0 = .ok window →
      window.bind (CallArguments.lookup { positional := [id] }) = .ok bound →
      store.fetch bound directives state = (.ok ⟨columns, []⟩, state') →
      ∃ M : Meaning, M.Follows { positional := [id] } ∧ s.rows M db s.plan = []

section ByIdentifier

variable {db : Database schema} {M : Meaning} {target : Entity} {s : Select} {key : String}

/-- The condition of the query for an identifier reads the column of the identifier. -/
theorem Database.read_idName (hs : Select.ofQuery schema (Repository.byId target .single) = .ok s)
    (hkey : target.idColumn = .ok key) (other : TableRow) :
    db.read target other (.single target.idName) = other key := by
  obtain ⟨idField, hid, rfl⟩ : ∃ f, target.fieldNamed? target.idName = some f ∧ f.column = key := by
    unfold Entity.idColumn at hkey
    split at hkey
    · rename_i f hf
      exact ⟨f, hf, Except.ok.inj hkey⟩
    · cases hkey
  -- The path was resolved when the query was compiled, so its name is not empty.
  have hresolve : ∃ r, schema.resolve target (.single target.idName) = .ok r := by
    have hcondition := (Select.plannedFor_of_ofQuery hs).condition
    obtain ⟨h, _⟩ | ⟨p, condition, hp, _, hmade⟩ := mapM_eq_ok_iff.1 hcondition
    · cases h
    cases hp
    obtain ⟨column, hcolumn, _⟩ := bind_eq_ok_iff.1 hmade
    obtain ⟨⟨c, type⟩, hcolumn, _⟩ := bind_eq_ok_iff.1 hcolumn
    obtain ⟨r, hr, _⟩ := JoinPlan.column_eq_ok hcolumn
    exact ⟨r, hr⟩
  exact db.read_single hid hresolve other

/-- The query for an identifier selects the rows whose identifier is found equal to it. -/
theorem Select.rows_byId_eq_nil_iff
    (hs : Select.ofQuery schema (Repository.byId target .single) = .ok s)
    (hkey : target.idColumn = .ok key) :
    s.rows M db s.plan = [] ↔
      ∀ other ∈ db.rows target.table, M.compare .equals (other key) (.slot ⟨0, none⟩) ≠ .yes := by
  have hplanned := Select.plannedFor_of_ofQuery hs
  -- A row of the table is kept exactly if its key equals the given one, since the query has no other test.
  have hkeeps : ∀ other, Keeps M db (Repository.byId target .single) s other ↔
      M.compare .equals (other key) (.slot ⟨0, none⟩) = .yes := by
    intro other
    have hread : db.read target other (.single target.idName) = other key :=
      Database.read_idName hs hkey other
    rw [hplanned.keeps_iff M db rfl, ← hread]
    exact decide_eq_true_iff
  rw [Select.rows_eq_flatMap, hplanned.root, List.flatMap_eq_nil_iff]
  refine forall₂_congr fun other _ => ?_
  rw [ne_eq, ← hkeeps]
  constructor
  · intro hnone hkept
    obtain ⟨row, hrow, _⟩ := hplanned.rowsFrom_of_keeps hplanned.decides hkept
    rw [hnone] at hrow
    cases hrow
  · exact hplanned.rowsFrom_of_not_keeps hplanned.decides

end ByIdentifier

namespace Repository

variable {repository : Repository} {store : Store σ} {db : Database repository.schema}
variable {ex ex' : Exchange σ} {r r' : Record}

/-- **A record that is not found is not there**: where nothing is loaded for a key, no row has it. -/
theorem not_equals_of_load (hstore : store.Finds db) {target : Entity}
    (htarget : target ∈ repository.schema.entities) {key : String} (hkey : target.idColumn = .ok key)
    {id : Value} (hload : repository.load store target id ex = (.ok none, ex')) {stored : Stored}
    (hid : Value.ofStored stored = .ok id) :
    ∀ other ∈ db.rows target.table, ¬ (other key).Equals stored := by
  intro other hother hequals
  obtain ⟨compiled, window, rows, mid, hcompiled, hwindow, hrows, hmaps⟩ := load_ok hload
  obtain ⟨s, hs, hmade⟩ := bind_eq_ok_iff.1 (mapError_eq_ok_iff.1 (mapError_eq_ok_iff.1 hcompiled))
  obtain rfl := pure_eq_ok_iff.1 hmade
  obtain ⟨bound, hbound, hfetch⟩ := fetchRows_ok_iff.1 hrows
  obtain ⟨state, hanswer, _⟩ := Run.fetch_ok_iff.1 hfetch
  -- Each row that came back would have become a result.
  obtain ⟨columns, values⟩ := rows
  obtain rfl : values = [] := List.length_eq_zero_iff.1 (Mapping.length_of_mapRows hmaps).symm
  obtain ⟨M, hM, hnone⟩ :=
    hstore target htarget s hs id window bound _ _ columns state hwindow hbound hanswer
  refine (Select.rows_byId_eq_nil_iff hs hkey).1 hnone other hother ?_
  exact hM ⟨0, none⟩ id stored _ rfl hid hequals

/-- Where its link told the truth, an association that is resolved to nothing leads nowhere. -/
theorem leadsNowhere_of_resolveInPlace (hschema : repository.schema.Checked) (hstore : store.Finds db)
    (hregistered : repository.schema.entity? e.name = some e) (hentity : r.entity = e.name)
    (htells : ∀ a, e.associationNamed? name = some a → r.Tells db e start name)
    (hresolve : repository.resolveInPlace store name r ex = ((.ok (), r'), ex'))
    (hnone : r'.link? name = some (.loaded none)) : db.LeadsNowhere e start name := by
  obtain ⟨owner, a, howner, ha, hcases⟩ := resolveInPlace_ok_iff.1 hresolve
  rw [hentity] at howner
  obtain rfl := Option.some.inj (hregistered.symm.trans howner)
  obtain ⟨link, hlink, htold⟩ := htells a ha
  rcases hcases with ⟨target, key, loaded, hunresolved, hload, rfl⟩ | ⟨_, rfl, _⟩
  · obtain rfl := Option.some.inj (hunresolved.symm.trans hlink)
    rw [Record.link?_setLink] at hnone
    obtain rfl := Option.some.inj hnone
    obtain ⟨target', htarget, ⟨column, found, hkind, hfound, hloaded⟩ | ⟨_, _, _, hmany, _⟩⟩ :=
      loadLink_ok_iff.1 hload
    · -- The link has the key that is stored, which was looked for in vain.
      have hmem := Schema.mem_entities_of_entity? hregistered
      obtain ⟨hop, hhop, rfl, hhopTarget, hhopKey⟩ := hschema.exists_hop? hmem ha hkind
      obtain ⟨hkey, hstored⟩ := htold hop hhop
      obtain rfl := Option.some.inj (htarget.symm.trans hhopTarget)
      cases hfound
      rcases hloaded with ⟨hnull, _⟩ | ⟨_, hload⟩
      · cases key with
        | null => exact absurd rfl hkey
        | _ => cases hnull
      · exact ⟨hop, hhop, .inr (not_equals_of_load hstore (Schema.mem_entities_of_entity? htarget)
          hhopKey hload hstored)⟩
    · cases hmany
  -- The link was loaded before and is as it was.
  · obtain rfl := Option.some.inj (hnone.symm.trans hlink)
    exact htold

/-- **An absent association is absent in the store**, unless its key was not read: where resolving
    leaves an association without a record, the foreign key in the row of the record is null or names
    no row.  That holds of all records that a compiled query reads or loads, and of the records of
    text for the store as far as it gives a column with the key. -/
theorem resolved_absent {entities : List Entity}
    (hbuilt : Schema.build entities = .ok repository.schema)
    (hnames : ∀ e ∈ repository.schema.entities, e.PlainNames) (hstore : store.Finds db)
    (name : String) :
    (∀ e start r, r.Selected db e start → ∀ ex r' ex',
      repository.resolveInPlace store name r ex = ((.ok (), r'), ex') →
        r'.link? name = some (.loaded none) → db.LeadsNowhere e start name) ∧
    ∀ e start row r, r.Native db e start row →
      (∀ a column, e.associationNamed? name = some a → a.kind = .toOne column →
        (Mapping.keyOf row a column).isSome = true) → ∀ ex r' ex',
      repository.resolveInPlace store name r ex = ((.ok (), r'), ex') →
        r'.link? name = some (.loaded none) → db.LeadsNowhere e start name := by
  have hschema := Schema.checked_of_build hbuilt
  constructor
  · intro e start r hselected ex r' ex' hresolve hnone
    obtain ⟨htold, _⟩ := hselected.told hschema hnames
    exact leadsNowhere_of_resolveInPlace hschema hstore htold.registered htold.entity
      (htold.tells name) hresolve hnone
  · intro e start row r hnative hread ex r' ex' hresolve hnone
    exact leadsNowhere_of_resolveInPlace hschema hstore hnative.registered hnative.entity_eq
      (fun a ha => hnative.tells hschema ha fun column => hread a column ha) hresolve hnone

end Repository

namespace Sample

/-- A team, and a member whose team is not there. -/
def strayTables : String → List TableRow
  | "team" => [row [("team_id", 1)]]
  | "member" => [row [("member_id", 1), ("age", 20), ("team_id", 7)]]
  | _ => []

/-- These tables as a database. -/
def strays : Database league where
  rows := strayTables
  ids_ne_null e he key hkey := by
    rcases List.mem_pair.1 he with rfl | rfl
    · obtain rfl : "team_id" = key := Except.ok.inj hkey
      decide
    · obtain rfl : "member_id" = key := Except.ok.inj hkey
      decide
  ids_unique e he key hkey := by
    rcases List.mem_pair.1 he with rfl | rfl
    · obtain rfl : "team_id" = key := Except.ok.inj hkey
      decide
    · obtain rfl : "member_id" = key := Except.ok.inj hkey
      decide

/-- A store that has no row for the number seven, and some row for everything else. -/
def strayStore : Store Unit where
  fetch bound _ _ :=
    (.ok ⟨["id"], if (bound.values.head?.any (isInteger 7)) = true then [] else [[.integer 1]]⟩, ())
  execute _ _ _ := (.ok 0, ())

/-- Everything that is compared with the number seven by its identifier. -/
def equalsSeven : Meaning where
  compare _ value _ := .ofBool (value.Equals (.integer 7))
  member _ _ := .unknown
  compare_null _ _ := nofun
  member_null _ := nofun

/-- With seven as the only argument, equality with the slot is equality with seven. -/
theorem equalsSeven_follows : equalsSeven.Follows { positional := [.integer 7] } := by
  intro slot v stored value hv hstored hequals
  obtain rfl : v = .integer 7 := by
    have hnamed : (slot.name.bind fun name => List.lookup name ([] : List (String × Value))) = none := by
      cases slot.name <;> rfl
    unfold CallArguments.lookup at hv
    rw [hnamed, Option.none_or] at hv
    split at hv
    · rename_i given hgiven
      cases hv
      exact List.mem_singleton.1 (List.mem_of_getElem? hgiven)
    · cases hv
  -- Nothing but that integer is stored as it.
  obtain rfl : stored = .integer 7 := by
    cases stored with
    | integer n =>
      cases hstored
      rfl
    | text bytes =>
      simp only [Value.ofStored] at hstored
      split at hstored <;> cases hstored
    | null | real _ | blob _ => cases hstored
  exact if_pos (decide_eq_true hequals)

/-- The store tells the truth: of the rows behind these identifiers it only denies those that are not
    there. -/
theorem strayStore_finds : strayStore.Finds strays := by
  intro target htarget s hs id window bound directives state columns state' hwindow hbound hanswer
  -- The identifier is the first value that is bound.
  have hid : bound.values.head? = some id := by
    have hshape : ∃ before after, window.fragments =
        [.sql before, .slot ⟨0, none⟩, .sql after, .value (.integer 2)] := by
      rcases List.mem_pair.1 htarget with rfl | rfl
      · cases hs
        cases hwindow
        exact ⟨_, _, rfl⟩
      · cases hs
        cases hwindow
        exact ⟨_, _, rfl⟩
    obtain ⟨before, after, hfragments⟩ := hshape
    unfold Statement.bind at hbound
    rw [hfragments] at hbound
    obtain ⟨parts, hparts, hbound⟩ := bind_eq_ok_iff.1 hbound
    cases hbound
    have hfirst := listMapM_eq_ok_iff.1 hparts
    obtain ⟨_, _, hbefore, hsecond, rfl⟩ := List.forall₂_cons_left_iff.1 hfirst
    obtain ⟨_, _, hslot, _, rfl⟩ := List.forall₂_cons_left_iff.1 hsecond
    cases hbefore
    obtain ⟨v, hv, hslot⟩ := bind_eq_ok_iff.1 hslot
    cases hv
    split at hslot
    · cases hslot
    · cases hslot
      rfl
  have hseven : id = .integer 7 := by
    simp only [strayStore, hid] at hanswer
    by_cases hseven : isInteger 7 id = true
    · unfold isInteger at hseven
      split at hseven
      · rw [of_decide_eq_true hseven]
      · cases hseven
    · simp [hseven] at hanswer
  subst hseven
  refine ⟨equalsSeven, equalsSeven_follows, ?_⟩
  rcases List.mem_pair.1 htarget with rfl | rfl
  · rw [Select.rows_byId_eq_nil_iff hs rfl]
    decide
  · rw [Select.rows_byId_eq_nil_iff hs rfl]
    decide

/-- Text for the store that gives the members with their teams. -/
def membersText : NativeQuery :=
  ⟨"select member_id, age, team_id from member", none, some member, .entity, .list⟩

/-- The member, in the row that this text gives for it. -/
def stray : Record :=
  .mk "Member" "id" [("id", .integer 1), ("age", .integer 20)] [("team", .unresolved "Team" (.integer 7))]

end Sample

/-- The team of the member is asked for in vain, and indeed no team has the key. -/
theorem Repository.resolved_absent_stray :
    ∃ start r' ex', Sample.stray.Native Sample.strays Sample.member start
        ⟨["member_id", "age", "team_id"], [.integer 1, .integer 20, .integer 7]⟩ ∧
      Sample.leagueMembers.resolveInPlace Sample.strayStore "team" Sample.stray ⟨(), [], []⟩ =
        ((.ok (), r'), ex') ∧ ex'.sent.length = 1 ∧ r'.link? "team" = some (.loaded none) ∧
      Sample.strays.LeadsNowhere Sample.member start "team" := by
  have hnative : Sample.stray.Native Sample.strays Sample.member
      (Sample.row [("member_id", 1), ("age", 20), ("team_id", 7)])
      ⟨["member_id", "age", "team_id"], [.integer 1, .integer 20, .integer 7]⟩ := by
    refine ⟨rfl, List.mem_cons_self, ⟨Sample.membersText, _, rfl, rfl, rfl, rfl⟩, ?_⟩
    intro a ha column hkind key hkey
    obtain rfl := List.mem_singleton.1 ha
    cases hkind
    cases hkey
    rfl
  have hresolves : ∃ r' ex', Sample.leagueMembers.resolveInPlace Sample.strayStore "team" Sample.stray
      ⟨(), [], []⟩ = ((.ok (), r'), ex') ∧ ex'.sent.length = 1 ∧
      r'.link? "team" = some (.loaded none) := ⟨_, _, rfl, rfl, rfl⟩
  obtain ⟨r', ex', hresolve, hsent, hnone⟩ := hresolves
  have hbuilt : Schema.build [Sample.team, Sample.member] = .ok Sample.leagueMembers.schema := by
    decide
  -- The row has the key of the team, so the link is not made up.
  have hread : ∀ a column, Sample.member.associationNamed? "team" = some a →
      a.kind = .toOne column → (Mapping.keyOf ⟨["member_id", "age", "team_id"],
        [.integer 1, .integer 20, .integer 7]⟩ a column).isSome = true := by
    intro a column ha hkind
    cases ha
    cases hkind
    rfl
  have hnames : ∀ e ∈ Sample.leagueMembers.schema.entities, e.PlainNames := by decide
  exact ⟨_, r', ex', hnative, hresolve, hsent, hnone, (Repository.resolved_absent hbuilt hnames
    Sample.strayStore_finds "team").2 _ _ _ _ hnative hread _ r' ex' hresolve hnone⟩

namespace Repository

variable {repository : Repository} {store : Store σ} {db : Database repository.schema}
variable {ex ex' : Exchange σ} {r r' : Record}

/-- **A key that was not read is taken for a null one**: the association counts as absent, whatever
    the row holds, and the store is not asked. -/
theorem resolveInPlace_of_unread (hschema : repository.schema.Checked) {row : Row}
    (h : r.Native db e start row) {a : Association} {column : String}
    (ha : e.associationNamed? name = some a) (hkind : a.kind = .toOne column)
    (hunread : Mapping.keyOf row a column = none) :
    repository.resolveInPlace store name r ex = ((.ok (), r.setLink name (.loaded none)), ex) := by
  have hmem := Schema.mem_entities_of_entity? h.registered
  obtain ⟨hop, _, _, htarget, _⟩ := hschema.exists_hop? hmem ha hkind
  refine resolveInPlace_ok_iff.2 ⟨e, a, h.entity_eq ▸ h.registered, ha, .inl ⟨a.target, .null,
    .loaded none, h.link?_of_unread ha hkind hunread, ?_, rfl⟩⟩
  exact loadLink_ok_iff.2 ⟨hop.target, htarget, .inl ⟨column, none, hkind, rfl, .inl ⟨rfl, rfl, rfl⟩⟩⟩

end Repository

namespace Sample

/-- Text for the store that gives the members with their ages, but not their teams. -/
def agesText : NativeQuery :=
  ⟨"select member_id, age from member", none, some member, .entity, .list⟩

/-- The first member, in the row that this text gives for it. -/
def agedMember : Record :=
  .mk "Member" "id" [("id", .integer 1), ("age", .integer 20)] [("team", .unresolved "Team" .null)]

end Sample

/-- The first member is in a team, but after a query that did not ask for it none is found, without
    a question to any store. -/
theorem Repository.absence_invented :
    ∃ start, Sample.agedMember.Native Sample.database Sample.member start
        ⟨["member_id", "age"], [.integer 1, .integer 20]⟩ ∧
      ¬ Sample.database.LeadsNowhere Sample.member start "team" ∧
      ∀ (σ : Type) (store : Store σ) (ex : Exchange σ), ∃ r',
        Sample.leagueMembers.resolveInPlace store "team" Sample.agedMember ex = ((.ok (), r'), ex) ∧
        r'.association "team" = .ok none := by
  have hnative : Sample.agedMember.Native Sample.database Sample.member
      (Sample.row [("member_id", 1), ("age", 20), ("team_id", 1)])
      ⟨["member_id", "age"], [.integer 1, .integer 20]⟩ := by
    refine ⟨rfl, List.mem_cons_self, ⟨Sample.agesText, _, rfl, rfl, rfl, rfl⟩, ?_⟩
    intro a ha column hkind key hkey
    obtain rfl := List.mem_singleton.1 ha
    cases hkind
    cases hkey
  refine ⟨_, hnative, ?_, fun σ store ex => ⟨Sample.agedMember.setLink "team" (.loaded none), ?_, rfl⟩⟩
  · rintro ⟨hop, hhop, hkey | hno⟩
    · cases hhop
      cases hkey
    · cases hhop
      exact hno _ List.mem_cons_self (by decide)
  -- Without a key in the row the link is unresolved with an absent key, and resolving asks the store
  -- nothing.
  · have hbuilt : Schema.build [Sample.team, Sample.member] = .ok Sample.leagueMembers.schema := by
      decide
    have hteam : Sample.member.associationNamed? "team" = some ⟨"team", "Team", .toOne "team_id"⟩ := rfl
    exact resolveInPlace_of_unread (Schema.checked_of_build hbuilt) hnative hteam rfl rfl

end EntityQuery
