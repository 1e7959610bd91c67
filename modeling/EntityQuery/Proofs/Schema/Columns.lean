import EntityQuery.Proofs.Schema.Consistent

namespace EntityQuery

/-!
# Fields and their columns

The lookups of an entity go from the name of a field to its column and from a column back to a field.  They
know the last pair of a name and a column only, so they mirror each other for all fields exactly if no two
of them share the one or the other (`Entity.forall_mirrors_iff`).

Nothing makes sure of that: a schema is built of entities with whatever further fields they declare
(`Schema.exists_build_declareAll`), and a field can be lost behind another one whose column it shares
(`Schema.shared_column_accepted`).
-/

namespace Entity

variable {e : Entity} {f : Field}

/-- The name of a field leads to its column, and the column back to the field. -/
def Mirrors (e : Entity) (f : Field) : Prop :=
  e.columnOf? f.name = some f.column ∧ e.fieldForColumn? f.column = some f

/-- Fields that share a name or a column are the same. -/
def Separate (e : Entity) : Prop :=
  ∀ f ∈ e.fields, ∀ g ∈ e.fields, f.name = g.name ∨ f.column = g.column → f = g

instance (e : Entity) : Decidable e.Separate :=
  inferInstanceAs (Decidable (∀ f ∈ e.fields, ∀ g ∈ e.fields, _ → _))

/-- A field is mirrored if its name and column are the last pair, and it is the first field of its name. -/
theorem mirrors_iff :
    e.Mirrors f ↔ e.LastPair f.name f.column ∧ e.fieldNamed? f.name = some f := by
  rw [Mirrors, columnOf?_eq_some_iff, fieldForColumn?_eq_some_iff]
  exact ⟨And.right, fun h => ⟨h.1, h⟩⟩

/-- There is a last declaration of each field. -/
theorem exists_last_of_mem (hf : f ∈ e.fields) :
    ∃ before after, e.fields = before ++ f :: after ∧ f ∉ after := by
  -- It is the first one from behind.
  obtain ⟨after, before, hsplit, hlast⟩ := List.eq_append_cons_of_mem (List.mem_reverse.2 hf)
  refine ⟨before.reverse, after.reverse, ?_, fun h => hlast (List.mem_reverse.1 h)⟩
  rw [← List.reverse_reverse e.fields, hsplit]
  simp

/-- **All fields are mirrored exactly if they are separate.** -/
theorem forall_mirrors_iff : (∀ f ∈ e.fields, e.Mirrors f) ↔ e.Separate := by
  constructor
  · intro h f hf g hg hshared
    obtain ⟨hcolumn, hback⟩ := h f hf
    obtain ⟨hcolumn', hback'⟩ := h g hg
    -- Fields of one name have one column, and a column leads back to one field.
    have hsame : f.column = g.column := hshared.elim
      (fun hname => Option.some.inj (hcolumn.symm.trans (hname ▸ hcolumn'))) id
    exact Option.some.inj (hback.symm.trans (hsame ▸ hback'))
  · intro h f hf
    refine mirrors_iff.2 ⟨?_, ?_⟩
    · -- Behind its last declaration there is no field that shares a name or a column with it, since that
      -- would be the same field.
      obtain ⟨before, after, hfields, hlast⟩ := exists_last_of_mem hf
      have hafter : ∀ g ∈ after, g ∈ e.fields := fun g hg => by
        rw [hfields]
        exact List.mem_append_right before (List.mem_cons_of_mem f hg)
      refine ⟨before, f, after, hfields, rfl, rfl, fun g hg => not_or.1 fun hshared => ?_⟩
      exact hlast (h g (hafter g hg) f hf hshared ▸ hg)
    · cases hnamed : e.fieldNamed? f.name with
      | none => exact absurd (beq_self_eq_true _) (List.find?_eq_none.1 hnamed f hf)
      | some g =>
        obtain ⟨hg, hname⟩ := mem_of_fieldNamed? hnamed
        rw [h g hg f hf (.inl hname)]

/-! ### Further fields -/

/-- An entity with further fields. -/
def declareAll (e : Entity) (further : List Field) : Entity := further.foldl declare e

/-- Fields are declared one behind the other, and nothing else changes. -/
theorem declareAll_eq (e : Entity) (further : List Field) :
    e.declareAll further = { e with fields := e.fields ++ further } := by
  induction further generalizing e with
  | nil => simp [declareAll]
  | cons f further ih =>
    show (e.declare f).declareAll further = _
    rw [ih, declare]
    simp

end Entity

namespace Schema

variable {entities : List Entity} {schema : Schema} {e : Entity}

/-- Entities stay consistent whatever becomes of them, as long as they keep their names, tables,
    identifiers and associations, and the fields that they have. -/
theorem Consistent.map (h : Consistent entities) {change : Entity → Entity}
    (hname : ∀ e, (change e).name = e.name) (htable : ∀ e, (change e).table = e.table)
    (hid : ∀ e, (change e).idName = e.idName) (hfields : ∀ e, e.fields ⊆ (change e).fields)
    (hassociations : ∀ e, (change e).associations = e.associations) :
    Consistent (entities.map change) where
  identified := by
    rintro _ hmem
    obtain ⟨e, he, rfl⟩ := List.mem_map.1 hmem
    obtain ⟨hnamed, f, hf, hfid⟩ := h.identified e he
    rw [Entity.Identified, hid]
    exact ⟨hnamed, f, hfields e hf, hfid⟩
  names := by
    have hsame : (·.name) ∘ change = (·.name) := funext hname
    rw [List.map_map, hsame]
    exact h.names
  tables := by
    have hsame : (·.table) ∘ change = (·.table) := funext htable
    rw [List.map_map, hsame]
    exact h.tables
  targets := by
    rintro _ hmem a ha
    obtain ⟨e, he, rfl⟩ := List.mem_map.1 hmem
    rw [hassociations] at ha
    obtain ⟨target, htarget, hsame⟩ := h.targets e he a ha
    exact ⟨_, List.mem_map_of_mem htarget, (hname target).trans hsame⟩
  -- The way back looks at names and associations only, and neither has changed.
  waysBack := by
    rintro _ hmem a ha mappedBy hkind _ hmem' hsame
    obtain ⟨e, he, rfl⟩ := List.mem_map.1 hmem
    obtain ⟨target, htarget, rfl⟩ := List.mem_map.1 hmem'
    rw [hassociations] at ha
    rw [hname] at hsame
    rw [Entity.LeadsBack, hassociations, hname]
    exact h.waysBack e he a ha mappedBy hkind target htarget hsame

/-- The entities where the one of the given name has further fields. -/
def withFurther (entities : List Entity) (name : String) (further : List Field) : List Entity :=
  entities.map fun e => if e.name = name then e.declareAll further else e

/-- **No further field keeps a schema from being built.** -/
theorem exists_build_declareAll (h : Consistent entities) (name : String) (further : List Field) :
    build (withFurther entities name further) = .ok ⟨withFurther entities name further⟩ := by
  refine build_eq_ok_iff.2 ⟨h.map ?_ ?_ ?_ ?_ ?_, rfl⟩
  all_goals
    intro e
    split
    · simp [Entity.declareAll_eq]
    · simp

/-- **Fields and columns correspond as far as they are told apart.**  In a built schema the name of each
    field leads to its column and the column back to the field exactly if fields that share a name or a
    column are the same.  In general the lookups know the last pair of a name and a column, and the first
    field of a name.  Building does not look at any of this: with whatever further fields an entity is
    declared, the schema is built. -/
theorem fields_mirrored_iff (h : build entities = .ok schema) (he : e ∈ schema.entities) :
    ((∀ f ∈ e.fields, e.Mirrors f) ↔ e.Separate) ∧
      (∀ name column, e.columnOf? name = some column ↔ e.LastPair name column) ∧
      (∀ column f, e.fieldForColumn? column = some f ↔
        e.LastPair f.name column ∧ e.fieldNamed? f.name = some f) ∧
      ∀ further, ∃ extended, build (withFurther entities e.name further) = .ok extended ∧
        e.declareAll further ∈ extended.entities := by
  obtain ⟨hconsistent, rfl⟩ := build_eq_ok_iff.1 h
  refine ⟨Entity.forall_mirrors_iff, fun _ _ => Entity.columnOf?_eq_some_iff,
    fun _ _ => Entity.fieldForColumn?_eq_some_iff, fun further =>
      ⟨_, exists_build_declareAll hconsistent e.name further, ?_⟩⟩
  have hmem := List.mem_map_of_mem (f := fun k => if k.name = e.name then k.declareAll further else k) he
  rwa [if_pos rfl] at hmem

end Schema

namespace Sample

/-- A field of a camel-case name, and one that is named like its column. -/
def account : Entity :=
  (((({ name := "Account", table := "account" } : Entity).withId "id" "account_id").withField
    "userName" .text false).withField "user_name" .text false)

end Sample

/-- The fields of members are told apart; with one more in the column of the age they still make up a
    schema. -/
theorem Schema.fields_mirrored_iff_member :
    build Sample.club = .ok ⟨Sample.club⟩ ∧ Sample.member ∈ Sample.club ∧
      Sample.member.Mirrors ⟨"age", "age", .integer, true⟩ ∧
      ∃ extended, build (withFurther Sample.club "Member" [⟨"years", "age", .integer, true⟩]) =
          .ok extended ∧
        Sample.member.declareAll [⟨"years", "age", .integer, true⟩] ∈ extended.entities := by
  have hbuild : build Sample.club = .ok ⟨Sample.club⟩ := by decide +kernel
  have hmember : Sample.member ∈ Sample.club := List.mem_cons_of_mem _ (List.mem_singleton_self _)
  obtain ⟨hmirrors, _, _, hfurther⟩ := fields_mirrored_iff hbuild hmember
  exact ⟨hbuild, hmember, hmirrors.2 (by decide +kernel) _ (by decide +kernel), hfurther _⟩

/-- **A column that two fields share is accepted**, and the name of the earlier one leads nowhere. -/
theorem Schema.shared_column_accepted :
    build [Sample.account] = .ok ⟨[Sample.account]⟩ ∧
      ⟨"userName", "user_name", .text, false⟩ ∈ Sample.account.fields ∧
      ⟨"user_name", "user_name", .text, false⟩ ∈ Sample.account.fields ∧
      Sample.account.columnOf? "userName" = none ∧
      Sample.account.fieldForColumn? "user_name" = some ⟨"user_name", "user_name", .text, false⟩ := by
  decide +kernel

end EntityQuery
