import EntityQuery.Proofs.Schema.Composed
import EntityQuery.Proofs.Schema.Entities

namespace EntityQuery

/-!
# Joinable paths

A path can be joined step by step if each of its beginnings ends in a to-one association whose target
is known (`Schema.Joinable`).  In a built schema (`Schema.Checked`) this holds of all that a path
crosses (`Schema.joinable_parent`), and of the whole path where it ends in a to-one association
(`Schema.joinable_of_toOne`).
-/

variable {schema : Schema} {root owner : Entity} {path : Path} {r : Resolution}

namespace Schema

/-- What building makes sure of: the targets of associations are known, and every entity has an
    identifier. -/
structure Checked (schema : Schema) : Prop where
  targets : ∀ e ∈ schema.entities, schema.Targets e
  keys : ∀ e ∈ schema.entities, ∃ key, e.idColumn = .ok key

/-- What a built schema has been checked for. -/
theorem checked_of_build {entities : List Entity} (h : Schema.build entities = .ok schema) :
    schema.Checked where
  targets := targets_of_build h
  keys := by
    obtain ⟨hconsistent, rfl⟩ := build_eq_ok_iff.1 h
    intro e he
    obtain ⟨idField, hid⟩ := exists_idField (hconsistent.identified e he)
    exact ⟨idField.column, by simp [Entity.idColumn, hid]⟩

/-- A path ends in a to-one association, whose target has a key. -/
def Links (schema : Schema) (root : Entity) (path : Path) : Prop :=
  ∃ r a foreignKey target key, schema.resolve root path = .ok r ∧ r.association? = some a ∧
    a.joinColumn? = some foreignKey ∧ schema.entity? a.target = some target ∧
    target.idColumn = .ok key

/-- Every beginning of a path is linked. -/
def Joinable (schema : Schema) (root : Entity) (path : Path) : Prop :=
  ∀ front, front <+: path.segments → front ≠ [] → schema.Links root ⟨front⟩

/-- The beginnings of a joinable path are joinable. -/
theorem Joinable.parent (h : schema.Joinable root path) : schema.Joinable root path.parent :=
  fun front hfront => h front (hfront.trans path.parent_isPrefix)

/-- An entity that is found is one of the schema. -/
theorem mem_entities_of_entity? {name : String} {e : Entity} (h : schema.entity? name = some e) :
    e ∈ schema.entities := List.mem_of_find?_eq_some h

/-- And it has the name it was found under. -/
theorem name_of_entity? {name : String} {e : Entity} (h : schema.entity? name = some e) :
    e.name = name := by
  unfold entity? find? at h
  simpa using List.find?_some h

/-- A built schema finds each of its entities by its name. -/
theorem entity?_of_build {entities : List Entity} (h : Schema.build entities = .ok schema) {e : Entity}
    (he : e ∈ schema.entities) : schema.entity? e.name = some e := by
  obtain ⟨hconsistent, rfl⟩ := build_eq_ok_iff.1 h
  exact (entity?_eq_some_iff hconsistent).2 ⟨he, rfl⟩

/-- An entity that is found is found by its own name. -/
theorem entity?_name {name : String} {e : Entity} (h : schema.entity? name = some e) :
    schema.entity? e.name = some e := by
  rw [name_of_entity? h]
  exact h

/-- A walk along associations stays within the schema. -/
theorem mem_entities_of_leads {segments : List String} (h : Leads schema root segments owner)
    (hroot : root ∈ schema.entities) : owner ∈ schema.entities := by
  induction h with
  | here => exact hroot
  | across _ _ target _ ih => exact ih (mem_entities_of_entity? target)

/-! ### Built schemas -/

variable (hschema : schema.Checked) (hroot : root ∈ schema.entities)
include hschema hroot

/-- A path that ends in a to-one association is linked. -/
theorem links_of_toOne {a : Association} (hr : schema.resolve root path = .ok r)
    (ha : r.association? = some a) (htoOne : a.isToOne = true) : schema.Links root path := by
  have hresolved := resolved_of_resolve hr
  have hterminal := Resolution.association?_eq_some_iff.1 ha
  have hnamed := Entity.associationNamed?_of_property? (hterminal ▸ hresolved.terminal)
  have howner := mem_entities_of_leads hresolved.leads hroot
  obtain ⟨target, key, htarget, hkey⟩ :=
    hschema.targets r.owner howner a (Entity.mem_of_associationNamed? hnamed).1 htoOne
  obtain ⟨foreignKey, hforeignKey⟩ := Option.isSome_iff_exists.1 htoOne
  exact ⟨r, a, foreignKey, target, key, hr, ha, hforeignKey, htarget, hkey⟩

/-- **All that a path crosses can be joined.** -/
theorem joinable_parent (hr : schema.resolve root path = .ok r) :
    schema.Joinable root path.parent := by
  intro front hfront hne
  have hpath := Path.parent_append_leaf (resolved_of_resolve hr).nonempty
  obtain ⟨between, hbetween⟩ := hfront
  have hsplit : path = ⟨front ++ (between ++ [path.leaf])⟩ := by
    rw [← List.append_assoc, hbetween, hpath]
  rw [hsplit] at hr
  obtain ⟨r', a, hr', ha, htoOne⟩ := resolve_front hr hne (by simp)
  exact links_of_toOne hschema hroot hr' ha htoOne

/-- **A path that ends in a to-one association can be joined** as a whole. -/
theorem joinable_of_toOne {a : Association} (hr : schema.resolve root path = .ok r)
    (ha : r.association? = some a) (htoOne : a.isToOne = true) : schema.Joinable root path := by
  intro front hfront hne
  obtain ⟨back, hback⟩ := hfront
  by_cases hwhole : back = []
  · rw [hwhole, List.append_nil] at hback
    obtain rfl : path = ⟨front⟩ := by rw [hback]
    exact links_of_toOne hschema hroot hr ha htoOne
  · obtain rfl : path = ⟨front ++ back⟩ := by rw [hback]
    obtain ⟨r', a', hr', ha', htoOne'⟩ := resolve_front hr hne hwhole
    exact links_of_toOne hschema hroot hr' ha' htoOne'

end Schema

end EntityQuery
