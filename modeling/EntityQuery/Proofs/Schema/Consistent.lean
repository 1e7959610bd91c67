import EntityQuery.Proofs.Outcome
import EntityQuery.Proofs.Schema.Pairs
import EntityQuery.Schema.Basic

namespace EntityQuery

/-!
# Consistent entities

What entities have to be so that they make up a schema (`Schema.Consistent`) is said here without the
order in which they are checked: names and tables are told apart, every entity has its identifier, and
associations point at entities of the list, the to-many ones at one that leads back.  A schema is built of
a list exactly if that is so, and then it holds just these entities (`Schema.build_eq_ok_iff`).

From this the lookups of a schema are known: by name and by table each entity of the list is found, and
nothing else (`Schema.entities_validated`).
-/

/-- The identifier has a name, and is one of the fields. -/
def Entity.Identified (e : Entity) : Prop := e.idName ≠ "" ∧ ∃ f ∈ e.fields, f.name = e.idName

/-- The first association with the name is a to-one association to the given entity. -/
def Entity.LeadsBack (target : Entity) (name : String) (e : Entity) : Prop :=
  ∃ before back after column, target.associations = before ++ back :: after ∧
    (∀ a ∈ before, a.name ≠ name) ∧ back.name = name ∧ back.kind = .toOne column ∧ back.target = e.name

namespace Schema

variable {entities kept kept' : List Entity} {schema : Schema} {e : Entity}

/-- **Entities that make up a schema.** -/
structure Consistent (entities : List Entity) : Prop where
  identified : ∀ e ∈ entities, e.Identified
  names : (entities.map (·.name)).Nodup
  tables : (entities.map (·.table)).Nodup
  targets : ∀ e ∈ entities, ∀ a ∈ e.associations, ∃ target ∈ entities, target.name = a.target
  waysBack : ∀ e ∈ entities, ∀ a ∈ e.associations, ∀ mappedBy, a.kind = .toMany mappedBy →
    ∀ target ∈ entities, target.name = a.target → target.LeadsBack mappedBy e

/-! ### Entities one after the other -/

/-- An entity is identified exactly if the check for it passes. -/
theorem identified_iff : e.Identified ↔ ¬(e.idName.isEmpty || e.idField?.isNone) = true := by
  rw [Bool.or_eq_true, not_or, String.isEmpty_iff, Option.isNone_iff_eq_none, Entity.Identified,
    Entity.idField?, Entity.fieldNamed?, List.find?_eq_none]
  simp

/-- The identifier of an entity is found among its fields. -/
theorem exists_idField (h : e.Identified) : ∃ idField, e.idField? = some idField := by
  have hid := identified_iff.1 h
  rw [Bool.or_eq_true, not_or, Bool.not_eq_true, Bool.not_eq_true, Option.isNone_eq_false_iff] at hid
  exact Option.isSome_iff_exists.1 hid.2

/-- **What one entity needs** to join those before it. -/
theorem register_eq_ok_iff :
    register kept e = .ok kept' ↔ e.Identified ∧ (∀ k ∈ kept, k.table ≠ e.table) ∧
      (∀ k ∈ kept, k.name ≠ e.name) ∧ kept' = kept ++ [e] := by
  have hany : ∀ p : Entity → Bool, ¬kept.any p = true ↔ ∀ k ∈ kept, ¬p k = true := by simp
  unfold register
  rw [identified_iff]
  -- Each check stands for one of the conditions, and the last branch is where all of them hold.
  split
  · rename_i hid
    exact ⟨nofun, fun h => absurd hid h.1⟩
  split
  · rename_i htable
    refine ⟨nofun, fun h => absurd htable ((hany _).2 fun k hk => ?_)⟩
    rw [beq_iff_eq]
    exact h.2.1 k hk
  split
  · rename_i hname
    refine ⟨nofun, fun h => absurd hname ((hany _).2 fun k hk => ?_)⟩
    rw [beq_iff_eq]
    exact h.2.2.1 k hk
  · rename_i hid htable hname
    rw [hany] at htable hname
    simp only [beq_iff_eq] at htable hname
    rw [Except.ok.injEq, eq_comm]
    exact ⟨fun h => ⟨hid, htable, hname, h⟩, fun h => h.2.2.2⟩

/-- All entities join exactly if each has its identifier and no two share a name or a table. -/
theorem foldlM_register_eq_ok_iff :
    entities.foldlM register kept = .ok kept' ↔
      (∀ e ∈ entities, e.Identified) ∧
        entities.Pairwise (fun e e' => e.table ≠ e'.table ∧ e.name ≠ e'.name) ∧
        (∀ k ∈ kept, ∀ e ∈ entities, k.table ≠ e.table ∧ k.name ≠ e.name) ∧ kept' = kept ++ entities := by
  -- An entity is told apart from those behind it when they join, so the entities that joined before are
  -- part of the statement.
  induction entities generalizing kept with
  | nil =>
    rw [List.foldlM_nil, pure_eq_ok_iff, List.append_nil, eq_comm]
    simp
  | cons e entities ih =>
    rw [List.foldlM_cons, bind_eq_ok_iff, List.forall_mem_cons, List.pairwise_cons]
    simp only [register_eq_ok_iff, ih]
    constructor
    · rintro ⟨_, ⟨hid, htable, hname, rfl⟩, hids, hapart, hkept, rfl⟩
      obtain ⟨hkept, hlast⟩ := List.forall_mem_append.1 hkept
      exact ⟨⟨hid, hids⟩, ⟨hlast e (List.mem_singleton_self e), hapart⟩,
        fun k hk => List.forall_mem_cons.2 ⟨⟨htable k hk, hname k hk⟩, hkept k hk⟩,
        by rw [List.append_assoc, List.singleton_append]⟩
    · rintro ⟨⟨hid, hids⟩, ⟨hlast, hapart⟩, hkept, rfl⟩
      refine ⟨kept ++ [e], ⟨hid, fun k hk => (hkept k hk e List.mem_cons_self).1,
        fun k hk => (hkept k hk e List.mem_cons_self).2, rfl⟩, hids, hapart, ?_,
        by rw [List.append_assoc, List.singleton_append]⟩
      exact List.forall_mem_append.2 ⟨fun k hk e' he' => hkept k hk e' (List.mem_cons_of_mem e he'),
        List.forall_mem_singleton.2 hlast⟩

/-! ### Associations -/

/-- An association leads back exactly if the check of both ends passes. -/
theorem leadsBack_iff {target : Entity} {mappedBy : String} :
    (target.associationNamed? mappedBy).any (leadsBackTo e) = true ↔ target.LeadsBack mappedBy e := by
  rw [Option.any_eq_true]
  unfold Entity.associationNamed? Entity.LeadsBack leadsBackTo Association.isToOne
    Association.joinColumn?
  simp only [List.find?_eq_some_iff_append, Bool.and_eq_true, beq_iff_eq, Bool.not_eq_true',
    beq_eq_false_iff_ne]
  constructor
  · rintro ⟨back, ⟨hname, before, after, hsplit, hbefore⟩, hkind, htarget⟩
    -- Only an association to one record has a join column, which is what the check asks for.
    cases hback : back.kind with
    | toOne column => exact ⟨before, back, after, column, hsplit, hbefore, hname, hback, htarget⟩
    | toMany other => rw [hback] at hkind; cases hkind
  · rintro ⟨before, back, after, column, hsplit, hbefore, hname, hback, htarget⟩
    exact ⟨back, ⟨hname, before, after, hsplit, hbefore⟩, by rw [hback]; rfl, htarget⟩

/-- An association can be kept if it points at an entity that is there, and at one that leads back if it is
    kept there. -/
theorem checkAssociation_eq_ok_iff (hnames : (entities.map (·.name)).Nodup) {a : Association} :
    checkAssociation entities e a = .ok () ↔
      ∃ target ∈ entities, target.name = a.target ∧
        ∀ mappedBy, a.kind = .toMany mappedBy → target.LeadsBack mappedBy e := by
  have hfind : ∀ target, find? entities a.target = some target ↔
      target ∈ entities ∧ target.name = a.target := fun _ => find?_eq_some_iff_of_nodup hnames
  unfold checkAssociation
  cases hfound : find? entities a.target with
  | none =>
    refine ⟨nofun, ?_⟩
    rintro ⟨target, htarget, hname, _⟩
    rw [(hfind target).2 ⟨htarget, hname⟩] at hfound
    cases hfound
  | some target =>
    obtain ⟨htarget, hname⟩ := (hfind target).1 hfound
    -- No other entity has the name.
    have honly : ∀ other ∈ entities, other.name = a.target → other = target := fun other hother hsame =>
      Option.some.inj (((hfind other).2 ⟨hother, hsame⟩).symm.trans hfound)
    cases hkind : a.kind with
    | toOne column => exact ⟨fun _ => ⟨target, htarget, hname, nofun⟩, fun _ => rfl⟩
    | toMany mappedBy =>
      dsimp only
      split
      · rename_i hback
        refine ⟨fun _ => ⟨target, htarget, hname, ?_⟩, fun _ => rfl⟩
        rintro _ ⟨⟩
        exact leadsBack_iff.1 hback
      · rename_i hback
        refine ⟨nofun, ?_⟩
        rintro ⟨other, hother, hsame, hleads⟩
        rw [honly other hother hsame] at hleads
        exact absurd (leadsBack_iff.2 (hleads mappedBy rfl)) hback

/-! ### Schemas -/

/-- **A schema is built of entities exactly if they are consistent**, and holds them as they are. -/
theorem build_eq_ok_iff : build entities = .ok schema ↔ Consistent entities ∧ schema = ⟨entities⟩ := by
  unfold build
  simp only [bind_eq_ok_iff, pure_eq_ok_iff, foldlM_register_eq_ok_iff, List.nil_append]
  constructor
  · rintro ⟨_, ⟨hids, hapart, _, hall⟩, _, hchecks, rfl⟩
    rw [hall] at hchecks ⊢
    have hnames : (entities.map (·.name)).Nodup := List.pairwise_map.2 (hapart.imp And.right)
    have htables : (entities.map (·.table)).Nodup := List.pairwise_map.2 (hapart.imp And.left)
    have hkept := fun e he a ha => (checkAssociation_eq_ok_iff hnames).1
      (forM_eq_ok_iff.1 (forM_eq_ok_iff.1 hchecks e he) a ha)
    refine ⟨⟨hids, hnames, htables, fun e he a ha => ?_, ?_⟩, rfl⟩
    · obtain ⟨target, htarget, hname, _⟩ := hkept e he a ha
      exact ⟨target, htarget, hname⟩
    -- Names are unique, so the target that was found is the one that is given.
    · intro e he a ha mappedBy hkind target htarget hname
      obtain ⟨other, hother, hsame, hleads⟩ := hkept e he a ha
      rw [List.inj_on_of_nodup_map hnames htarget hother (hname.trans hsame.symm)]
      exact hleads mappedBy hkind
  · rintro ⟨⟨hids, hnames, htables, htargets, hback⟩, rfl⟩
    have hapart := (List.pairwise_map.1 htables).and (List.pairwise_map.1 hnames)
    refine ⟨entities, ⟨hids, hapart, nofun, rfl⟩, (), forM_eq_ok_iff.2 fun e he =>
      forM_eq_ok_iff.2 fun a ha => ?_, rfl⟩
    obtain ⟨target, htarget, hname⟩ := htargets e he a ha
    exact (checkAssociation_eq_ok_iff hnames).2
      ⟨target, htarget, hname, fun mappedBy hkind => hback e he a ha mappedBy hkind target htarget hname⟩

/-- The order of entities has no part in whether they are consistent. -/
theorem Consistent.perm (h : Consistent entities) {permuted : List Entity}
    (hperm : entities.Perm permuted) : Consistent permuted where
  identified e he := h.identified e (hperm.mem_iff.2 he)
  names := (hperm.map _).nodup_iff.1 h.names
  tables := (hperm.map _).nodup_iff.1 h.tables
  targets e he a ha := by
    obtain ⟨target, htarget, hname⟩ := h.targets e (hperm.mem_iff.2 he) a ha
    exact ⟨target, hperm.mem_iff.1 htarget, hname⟩
  waysBack e he a ha mappedBy hkind target htarget :=
    h.waysBack e (hperm.mem_iff.2 he) a ha mappedBy hkind target (hperm.mem_iff.2 htarget)

/-! ### Lookups -/

/-- In a consistent schema an entity is found exactly by its own name. -/
theorem entity?_eq_some_iff (h : Consistent entities) {name : String} :
    entity? ⟨entities⟩ name = some e ↔ e ∈ entities ∧ e.name = name :=
  find?_eq_some_iff_of_nodup h.names

/-- And exactly by its own table. -/
theorem entityForTable?_eq_some_iff (h : Consistent entities) {table : String} :
    entityForTable? ⟨entities⟩ table = some e ↔ e ∈ entities ∧ e.table = table :=
  find?_eq_some_iff_of_nodup h.tables

/-- The names of entities and their tables, as they are paired while the entities join. -/
def tablePairs (entities : List Entity) : List (String × String) :=
  (entities.map fun e => (e.name, e.table)).foldl Entity.pairUp []

/-- No pair is given up for a later one. -/
theorem tablePairs_eq (h : Consistent entities) :
    tablePairs entities = entities.map fun e => (e.name, e.table) := by
  refine Entity.foldl_pairUp_of_oneToOne (Entity.oneToOne_of_nodup ?_ ?_)
  · rw [List.nil_append, List.map_map]
    exact h.names
  · rw [List.nil_append, List.map_map]
    exact h.tables

/-- The entity of a table is the one with the name that is paired with the table. -/
theorem entityForTable?_eq_bind (h : Consistent entities) (table : String) :
    entityForTable? ⟨entities⟩ table =
      ((tablePairs entities).find? (·.2 == table)).bind fun pair => entity? ⟨entities⟩ pair.1 := by
  have hsame : entities.find? ((·.2 == table) ∘ fun e => (e.name, e.table)) =
      entities.find? (·.table == table) := rfl
  unfold entityForTable?
  rw [tablePairs_eq h, List.find?_map, Option.bind_map, hsame]
  cases hfound : entities.find? (·.table == table) with
  | none => rfl
  | some e => exact ((entity?_eq_some_iff h).2 ⟨List.mem_of_find?_eq_some hfound, rfl⟩).symm

/-- **Building a schema checks all that it should, and nothing else.**  It succeeds exactly for consistent
    entities, in whatever order they come.  Then names and tables lead to the entities of the list and to
    no other: where an entity is found by its name it is found by its table, and the other way round.  The
    entity of a table is the one whose name is paired with it. -/
theorem entities_validated (entities : List Entity) :
    ((∃ schema, build entities = .ok schema) ↔ Consistent entities) ∧
      (∀ permuted, entities.Perm permuted →
        ((∃ schema, build entities = .ok schema) ↔ ∃ schema, build permuted = .ok schema)) ∧
      ∀ schema, build entities = .ok schema →
        (∀ name e, schema.entity? name = some e ↔ e ∈ entities ∧ e.name = name) ∧
        (∀ table e, schema.entityForTable? table = some e ↔ e ∈ entities ∧ e.table = table) ∧
        (∀ e, schema.entity? e.name = some e ↔ schema.entityForTable? e.table = some e) ∧
        ∀ table, schema.entityForTable? table =
          ((tablePairs entities).find? (·.2 == table)).bind fun pair => schema.entity? pair.1 := by
  have hbuild : ∀ es : List Entity, (∃ schema, build es = .ok schema) ↔ Consistent es := fun es => by
    simp only [build_eq_ok_iff, exists_and_left, exists_eq, and_true]
  refine ⟨hbuild entities, fun permuted hperm => ?_, fun schema hschema => ?_⟩
  · rw [hbuild, hbuild]
    exact ⟨fun h => h.perm hperm, fun h => h.perm hperm.symm⟩
  · obtain ⟨hconsistent, rfl⟩ := build_eq_ok_iff.1 hschema
    refine ⟨fun name e => entity?_eq_some_iff hconsistent,
      fun table e => entityForTable?_eq_some_iff hconsistent, fun e => ?_,
      entityForTable?_eq_bind hconsistent⟩
    rw [entity?_eq_some_iff hconsistent, entityForTable?_eq_some_iff hconsistent, and_iff_left rfl,
      and_iff_left rfl]

end Schema

namespace Sample

/-- Teams that know their members. -/
def club : List Entity := [team.hasMany "members" "Member" "team", member]

end Sample

/-- Members before their teams make up a schema too. -/
theorem Schema.entities_validated_club :
    Consistent Sample.club ∧ (∃ schema, build Sample.club.reverse = .ok schema) ∧
      entity? ⟨Sample.club⟩ "Member" = some Sample.member ∧
      entityForTable? ⟨Sample.club⟩ "member" = some Sample.member := by
  have hbuild : build Sample.club = .ok ⟨Sample.club⟩ := by decide +kernel
  obtain ⟨hconsistent, hperm, hlookups⟩ := entities_validated Sample.club
  obtain ⟨hname, htable, _, _⟩ := hlookups _ hbuild
  have hmember : Sample.member ∈ Sample.club := List.mem_cons_of_mem _ (List.mem_singleton_self _)
  exact ⟨hconsistent.1 ⟨_, hbuild⟩, (hperm _ (List.reverse_perm _).symm).1 ⟨_, hbuild⟩,
    (hname _ _).2 ⟨hmember, rfl⟩, (htable _ _).2 ⟨hmember, rfl⟩⟩

end EntityQuery
