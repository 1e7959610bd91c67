import EntityQuery.Proofs.Rows.Unsorted
import EntityQuery.Proofs.Template.Mentioned

namespace EntityQuery

open JoinPlan

/-!
# Counted arguments

A template that counts is written with an argument: `count(p)` asks for the rows in which `p` has a
value, and `count(distinct p)` for the different values of `p`.  `Template.counts_rows_of_parse` is what
the statement of such a template counts instead: all rows, whatever the argument is and whether it is
`distinct` or not.

That is never too few.  It is what was asked for exactly if every row has a value and, for a `distinct`
argument, no two rows have the same one.  So it is right for the alias of the rows themselves, and for
that of an inner join if only missing values are left out.  `Template.counts_other_rows` are counts that
come out too high, after a left join and for a repeated value.
-/

variable {schema : Schema} {db : Database schema} {start : TableRow}

/-! ### Paths of aliases -/

/-- Aliases with the paths from the root that they stand for, the latest one first. -/
abbrev AliasPaths := List (String × Path)

/-- The path of a written path, if its alias is known. -/
def AliasPaths.path? (aliases : AliasPaths) (p : WrittenPath) : Option Path :=
  (aliases.lookup p.base).map fun base => ⟨base.segments ++ p.properties⟩

/-- The alias of a join stands for the path of the join. -/
def WrittenJoin.place (aliases : AliasPaths) (j : WrittenJoin) : AliasPaths :=
  match j.knownAs, aliases.path? j.path with
  | some name, some path => (name, path) :: aliases
  | _, _ => aliases

/-- The path from the root that a path stands for behind all joins. -/
def WrittenSelect.path? (w : WrittenSelect) (p : WrittenPath) : Option Path :=
  (w.joins.foldl WrittenJoin.place [(w.knownAs, ⟨[]⟩)]).path? p

/-! ### Values of arguments -/

/-- The identifier of the row that a path leads to; it is null where there is no row. -/
def Database.idAt (db : Database schema) (root : Entity) (start : TableRow) (path : Path) : Stored :=
  match schema.reach? root path.segments, db.walk root (some start) path.segments with
  | some e, some row =>
    match e.idColumn with
    | .ok key => row key
    | .error _ => .null
  | _, _ => .null

/-- The value of an argument in a row of the result: for an alias, the identifier of its entity. -/
def WrittenSelect.argument (w : WrittenSelect) (db : Database schema) (root : Entity) (p : WrittenPath)
    (start : TableRow) : Stored :=
  match w.path? p with
  | none => .null
  | some path => if p.properties.isEmpty then db.idAt root start path else db.read root start path

/-- How many of some values there are, or how many different ones; what is null is not there. -/
def presentCount (distinct : Bool) (values : List Stored) : Nat :=
  let present := values.filter (· ≠ .null)
  if distinct then (present.map Stored.key).dedup.length else present.length

/-- No more values are there than rows. -/
theorem presentCount_le (distinct : Bool) (values : List Stored) :
    presentCount distinct values ≤ values.length := by
  have hpresent := List.length_filter_le (fun value => decide (value ≠ Stored.null)) values
  unfold presentCount
  cases distinct with
  | false => exact hpresent
  | true =>
    have hdifferent := (List.dedup_sublist ((values.filter (· ≠ .null)).map Stored.key)).length_le
    rw [List.length_map] at hdifferent
    exact Nat.le_trans hdifferent hpresent

/-- **All rows are counted** exactly if each has a value, and a different one where that matters. -/
theorem presentCount_eq_length_iff (distinct : Bool) (values : List Stored) :
    presentCount distinct values = values.length ↔
      (∀ value ∈ values, value ≠ .null) ∧ (distinct = true → (values.map Stored.key).Nodup) := by
  have hall : (∀ value ∈ values, value ≠ .null) ↔ values.filter (· ≠ .null) = values := by
    simp only [List.filter_eq_self, decide_eq_true_eq]
  have hpresent : (values.filter (· ≠ .null)).Sublist values := List.filter_sublist
  have hdifferent := List.dedup_sublist ((values.filter (· ≠ .null)).map Stored.key)
  rw [hall]
  unfold presentCount
  cases distinct with
  | false =>
    simp only [Bool.false_eq_true, if_false, false_implies, and_true]
    exact ⟨hpresent.eq_of_length, congrArg List.length⟩
  | true =>
    simp only [if_true, forall_const]
    constructor
    -- Two steps can lose values, dropping nulls and dropping repetitions. Losing none leaves both lists
    -- whole.
    · intro hcount
      have hle := hdifferent.length_le
      rw [hcount, List.length_map] at hle
      have hkept := hpresent.eq_of_length (Nat.le_antisymm hpresent.length_le hle)
      rw [hkept] at hcount hdifferent
      exact ⟨hkept, List.dedup_eq_self.1 (hdifferent.eq_of_length (by rw [hcount, List.length_map]))⟩
    · rintro ⟨hkept, hnodup⟩
      rw [hkept, hnodup.dedup, List.length_map]

/-! ### Identifiers -/

/-- The empty path leads to the row itself. -/
theorem Database.idAt_nil {root : Entity} {key : String} (hkey : root.idColumn = .ok key) :
    db.idAt root start ⟨[]⟩ = start key := by
  unfold idAt
  simp only [Schema.reach?, walk, hkey]

/-- A row that a link leads to has an identifier. -/
theorem Database.idAt_ne_null {root : Entity} {path : Path} (hlinks : schema.Links root path)
    (hsome : (db.walk root (some start) path.segments).isSome = true) :
    db.idAt root start path ≠ .null := by
  obtain ⟨r, a, foreignKey, target, key, hr, ha, hforeignKey, htarget, hkey⟩ := hlinks
  have hterminal := Resolution.association?_eq_some_iff.1 ha
  have hreach : schema.reach? root path.segments = some target :=
    (Schema.reach?_of_association hr hterminal).trans htarget
  obtain ⟨row, hrow⟩ := Option.isSome_iff_exists.1 hsome
  -- The row was found as the partner of a foreign key, which nothing equals that is null.
  obtain ⟨owner, _, hpartner⟩ := Option.bind_eq_some_iff.1 <|
    (db.walk_association ⟨foreignKey, target, key⟩ (resolved_of_resolve hr) hterminal hforeignKey htarget
      hkey (some start)).symm.trans hrow
  have hequals : (row key).Equals (owner foreignKey) := by
    unfold Database.partner at hpartner
    simpa only [decide_eq_true_eq] using List.find?_some hpartner
  unfold idAt
  simp only [hreach, hrow, hkey]
  exact hequals.1

namespace WrittenSelect

variable {w : WrittenSelect} {root : Entity} {p : WrittenPath} {path : Path}

/-- The value of an alias is an identifier. -/
theorem argument_alias (hpath : w.path? p = some path) (halias : p.properties = []) :
    w.argument db root p start = db.idAt root start path := by
  unfold argument
  simp only [hpath, halias, List.isEmpty_nil, if_true]

/-- The value of the alias of the rows themselves is their own identifier. -/
theorem argument_root {key : String} (hpath : w.path? p = some ⟨[]⟩) (hkey : root.idColumn = .ok key) :
    w.argument db root p start = start key := by
  have halias : p.properties = [] := by
    obtain ⟨base, _, hbase⟩ := Option.map_eq_some_iff.1 hpath
    exact (List.append_eq_nil_iff.1 (congrArg Path.segments hbase)).2
  rw [argument_alias hpath halias, Database.idAt_nil hkey]

end WrittenSelect

namespace Template

/-! ### Aliases of accepted templates -/

variable {scope scope' : Scope}

/-- What a scope resolves a written path to is what the aliases say. -/
theorem Scope.path?_of_path {written : WrittenPath} {path : Path} (h : scope.path written = .ok path) :
    AliasPaths.path? scope.aliases written = some path := by
  unfold Scope.path at h
  unfold AliasPaths.path?
  split at h
  · rename_i base hbase
    cases h
    rw [hbase, Option.map_some]
  · cases h

/-- The aliases of a scope are placed one join after the other. -/
theorem aliases_of_joinsOf {joins : List WrittenJoin} {requests : List JoinRequest}
    (h : joinsOf scope joins = .ok (requests, scope')) :
    scope'.aliases = joins.foldl WrittenJoin.place scope.aliases := by
  induction joins generalizing scope requests with
  | nil =>
    cases h
    rfl
  | cons j more ih =>
    rw [joinsOf] at h
    obtain ⟨⟨request, between⟩, hjoin, h⟩ := bind_eq_ok_iff.1 h
    obtain ⟨⟨rest, last⟩, hrest, h⟩ := bind_eq_ok_iff.1 h
    cases h
    -- A join places its own alias, and only once its path has been resolved.
    have hplace : between.aliases = j.place scope.aliases := by
      unfold join at hjoin
      obtain ⟨path, hpath, hjoin⟩ := bind_eq_ok_iff.1 hjoin
      obtain ⟨r, _, hjoin⟩ := bind_eq_ok_iff.1 hjoin
      split at hjoin
      · cases hjoin
      split at hjoin
      · cases hjoin
        unfold WrittenJoin.place
        rw [Scope.path?_of_path hpath]
        cases j.knownAs <;> rfl
      · cases hjoin
    rw [List.foldl_cons, ← hplace]
    exact ih hrest

/-- What a select that counts leaves of its clause: the alias of its argument is known, and nothing is
    selected. -/
theorem counted_of_ofSelect {w : WrittenSelect} {t : SelectTemplate} {inner : Bool} {p : WrittenPath}
    (h : ofSelect schema w = .ok t) (hclause : w.clause = .count inner p) :
    (∃ path, w.path? p = some path) ∧ t.selections = [] := by
  unfold ofSelect at h
  obtain ⟨scope, hscope, h⟩ := bind_eq_ok_iff.1 h
  obtain ⟨⟨joins, scope'⟩, hjoins, h⟩ := bind_eq_ok_iff.1 h
  obtain ⟨⟨selections, target, countOnly⟩, hfound, h⟩ := bind_eq_ok_iff.1 h
  obtain ⟨⟨predicate, numbering⟩, _, h⟩ := bind_eq_ok_iff.1 h
  obtain ⟨order, _, h⟩ := bind_eq_ok_iff.1 h
  cases h
  rw [hclause, clause] at hfound
  obtain ⟨path, hpath, hfound⟩ := bind_eq_ok_iff.1 hfound
  cases hfound
  -- The first alias is the one of the statement's entity.
  have hroot : scope.aliases = [(w.knownAs, ⟨[]⟩)] := by
    unfold Scope.ofEntity at hscope
    split at hscope <;> cases hscope
    rfl
  refine ⟨⟨path, ?_⟩, rfl⟩
  unfold WrittenSelect.path?
  rw [← hroot, ← aliases_of_joinsOf hjoins]
  exact Scope.path?_of_path hpath

/-! ### Counts -/

/-- **What a count counts**: all rows of its joins and its condition.  The rows in which its argument has
    a value, or the different values of a `distinct` argument, are never more.  They are as many exactly
    if each row has a value and, for a `distinct` argument, a different one.  That is always so for the
    alias of the rows themselves and, without `distinct`, for the alias of an inner join that is
    honoured.  The only defect that is left is an order by an association. -/
theorem counts_rows_of_parse {entities : List Entity} (hbuilt : Schema.build entities = .ok schema)
    {text : String} {t : SelectTemplate} {w : WrittenSelect} {inner : Bool} {p : WrittenPath}
    (h : parse schema text = .ok (.select t)) (hread : Grammar.parse? text = some (.select w))
    (hclause : w.clause = .count inner p) (M : Meaning) (db : Database schema) :
    (∃ s c path, Select.ofQuery schema (SelectTemplate.query t .count) = .ok s ∧
        (SelectTemplate.query t .count).compile schema = .ok c ∧ c.content = s.count ∧
        w.path? p = some path ∧
        let values := (s.roots M db s.plan).map (w.argument db t.entity p)
        (s.rows M db s.plan).length = values.length ∧
        s.counted M db = values.length ∧
        presentCount inner values ≤ s.counted M db ∧
        (presentCount inner values = s.counted M db ↔
          (∀ value ∈ values, value ≠ .null) ∧ (inner = true → (values.map Stored.key).Nodup)) ∧
        (path = ⟨[]⟩ → presentCount inner values = s.counted M db) ∧
        (p.properties = [] → JoinRequest.Insist t.joins path →
          presentCount false values = s.counted M db)) ∨
      ∃ d ∈ t.order, schema.EndsInAssociation t.entity d.path ∧
        (SelectTemplate.query t .count).compile schema = .error (.orderByAssociation d.path) := by
  have hchecked := Schema.checked_of_build hbuilt
  have hsound := sound_of_parse_select hchecked h .count
  have hfound : ofSelect schema w = .ok t := by
    unfold parse at h
    rw [hread] at h
    obtain ⟨found, hfound, h⟩ := bind_eq_ok_iff.1 h
    cases h
    exact hfound
  obtain ⟨⟨path, hpath⟩, hselections⟩ := counted_of_ofSelect hfound hclause
  rcases hsound.compiles_or_blames hchecked with ⟨c, hc⟩ | ⟨e, he, hblames⟩
  case inr =>
    cases hblames with
    | selected written _ =>
      rw [show (SelectTemplate.query t .count).selections = [] from hselections] at written
      cases written
    | sorted written association => exact .inr ⟨_, written, association, he⟩
  obtain ⟨s, hs, hcompiled⟩ := bind_eq_ok_iff.1 hc
  cases hcompiled
  have hplanned := Select.plannedFor_of_ofQuery hs
  refine .inl ⟨s, _, path, hs, hc, rfl, hpath, ?_⟩
  intro values
  have hvalues : values.length = (s.roots M db s.plan).length := List.length_map _
  -- Counting sees the same rows as the select does.
  have hcounted : s.counted M db = values.length := by
    rw [hplanned.counted_eq_length hsound.registered, hplanned.roots_filtering, hvalues]
  rw [hcounted]
  refine ⟨(hvalues.trans (hplanned.length_roots hplanned.decides)).symm, rfl, presentCount_le inner values,
    presentCount_eq_length_iff inner values, fun hroot => (presentCount_eq_length_iff inner values).2 ?_,
    fun halias hinsist => (presentCount_eq_length_iff false values).2 ⟨?_, nofun⟩⟩
  · -- The rows themselves: their identifiers are there, and no two are the same.
    obtain ⟨key, hkey⟩ := hchecked.keys _ hsound.registered
    obtain ⟨hids, hnodup⟩ := hplanned.nodup_ids M db hplanned.decides hsound.registered hkey
    have hargument : w.argument db t.entity p = fun start => start key :=
      funext fun _ => WrittenSelect.argument_root (hroot ▸ hpath) hkey
    have hown : values = (s.roots M db s.plan).map fun start => start key := hargument ▸ rfl
    rw [hown, List.map_map]
    exact ⟨List.forall_mem_map.2 hids, fun _ => hnodup⟩
  · -- The rows of an inner join: each row has a partner on its path.
    obtain ⟨request, hfirst, rfl, _⟩ := id hinsist
    obtain ⟨hne, hjoinable⟩ := hsound.joins request (List.mem_of_find?_eq_some hfirst)
    refine List.forall_mem_map.2 fun start hstart => ?_
    obtain ⟨_, hkeeps⟩ := (hplanned.mem_roots_iff hplanned.decides).1 hstart
    have hpartner := (hplanned.keeps_iff_insist.1 hkeeps).2 request.path hinsist
    rw [WrittenSelect.argument_alias hpath halias]
    exact Database.idAt_ne_null (hjoinable _ List.prefix_rfl hne) hpartner

end Template

/-! ### Examples -/

namespace Sample

/-- The members with a team, counted by the member. -/
def teamsText : String := "select count(distinct m) from Member m join m.team t"

/-- Two members of one team. -/
def teammates : Database league where
  rows
    | "team" => [row [("team_id", 1)]]
    | "member" => [row [("member_id", 1), ("team_id", 1)], row [("member_id", 2), ("team_id", 1)]]
    | _ => []
  ids_ne_null e he key hkey := by
    rcases List.mem_pair.1 he with rfl | rfl
    · obtain rfl : "team_id" = key := Except.ok.inj hkey
      decide
    · obtain rfl : "member_id" = key := Except.ok.inj hkey
      decide
  ids_unique e he key hkey := by
    rcases List.mem_pair.1 he with rfl | rfl
    · obtain rfl : "team_id" = key := Except.ok.inj hkey
      decide
    · obtain rfl : "member_id" = key := Except.ok.inj hkey
      decide

/-- What the statement of a text counts, and what its argument asks for. -/
def Counts (db : Database league) (text : String) (counted wanted : Nat) : Prop :=
  ∃ t w inner p s, Template.parse league text = .ok (.select t) ∧
    Grammar.parse? text = some (.select w) ∧ w.clause = .count inner p ∧
    Select.ofQuery league (Template.SelectTemplate.query t .count) = .ok s ∧
    s.counted meaning db = counted ∧
    presentCount inner ((s.roots meaning db s.plan).map (w.argument db t.entity p)) = wanted

/-- The two numbers for what was read of a text. -/
def countsOf (db : Database league) : Template → WrittenTemplate → Option (Nat × Nat)
  | .select t, .select w =>
    match w.clause, Select.ofQuery league (Template.SelectTemplate.query t .count) with
    | .count inner p, .ok s => some (s.counted meaning db,
        presentCount inner ((s.roots meaning db s.plan).map (w.argument db t.entity p)))
    | _, _ => none
  | _, _ => none

/-- What is computed for a text is what it counts. -/
theorem counts_of_countsOf {db : Database league} {text : String} {counted wanted : Nat}
    (h : ((Template.parse league text).toOption.bind fun t =>
      (Grammar.parse? text).bind (countsOf db t)) = some (counted, wanted)) :
    Counts db text counted wanted := by
  obtain ⟨t, ht, h⟩ := Option.bind_eq_some_iff.1 h
  obtain ⟨w, hw, h⟩ := Option.bind_eq_some_iff.1 h
  cases t with
  | bulk _ => cases h
  | select t =>
    -- Only a select that counts gets through.
    cases w with
    | bulk _ => cases h
    | select w =>
      unfold countsOf at h
      dsimp only at h
      split at h
      · rename_i inner p s hclause hs
        cases h
        exact ⟨t, w, inner, p, s, toOption_eq_some_iff.1 ht, hw, hclause, hs, rfl, rfl⟩
      · cases h

end Sample

/-- Two of the three members are in a team, and each of the two rows has an identifier of its own. -/
theorem Template.counts_rows_of_parse_members :
    ∃ (t : SelectTemplate) (w : WrittenSelect) (inner : Bool) (p : WrittenPath) (s : Select),
      Template.parse Sample.league Sample.teamsText = .ok (.select t) ∧ w.clause = .count inner p ∧
      s.counted Sample.meaning Sample.database = 2 ∧
      ∀ start ∈ s.roots Sample.meaning Sample.database s.plan,
        w.argument Sample.database t.entity p start ≠ .null := by
  have hbuilt : Schema.build [Sample.team, Sample.member] = .ok Sample.league := by decide +kernel
  have hcounts : Sample.Counts Sample.database Sample.teamsText 2 2 :=
    Sample.counts_of_countsOf (by decide +kernel)
  obtain ⟨t, w, inner, p, s, ht, hw, hclause, hs, hcounted, hwanted⟩ := hcounts
  have hcompiles : (SelectTemplate.query t .count).compile Sample.league =
      .ok (s.compiled (SelectTemplate.query t .count)) := bind_eq_ok_iff.2 ⟨s, hs, rfl⟩
  rcases counts_rows_of_parse hbuilt ht hw hclause Sample.meaning Sample.database with
    ⟨_, _, _, hs', _, _, _, _, _, _, hiff, _⟩ | ⟨_, _, _, herror⟩
  -- Both sides count two, so no value of the argument is null.
  · obtain rfl := Except.ok.inj (hs.symm.trans hs')
    obtain ⟨hvalues, _⟩ := hiff.1 (hwanted.trans hcounted.symm)
    exact ⟨t, w, inner, p, s, ht, hclause, hcounted,
      fun start hstart => hvalues _ (List.mem_map_of_mem hstart)⟩
  · cases hcompiles.symm.trans herror

/-- **Counts of other rows**: of three members one has no team, and two members of the same team are not
    two teams. -/
theorem Template.counts_other_rows :
    Sample.Counts Sample.database "select count(t) from Member m left join m.team t" 3 2 ∧
      Sample.Counts Sample.teammates "select count(distinct t) from Member m join m.team t" 2 1 :=
  ⟨Sample.counts_of_countsOf (by decide +kernel), Sample.counts_of_countsOf (by decide +kernel)⟩

end EntityQuery
