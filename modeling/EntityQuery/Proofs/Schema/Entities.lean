import EntityQuery.Proofs.Schema.Consistent
import EntityQuery.Sql.CompileDefect

namespace EntityQuery

/-!
# Entities of a schema

What is assumed of the names of properties, and what building a schema makes sure of.

* `Entity.PlainNames`: the names of an entity are told apart and hold no punctuation of paths and
  labels, so each property is found by its name;
* `Schema.targets_of_build`: a built schema knows the targets of all associations and what tells
  their rows apart.
-/

/-! ### Plain names -/

/-- A name in which nothing looks like the punctuation of labels. -/
def IsPlainName (name : String) : Prop := '.' ∉ name.toList ∧ '@' ∉ name.toList

instance (name : String) : Decidable (IsPlainName name) := inferInstanceAs (Decidable (_ ∧ _))

/-- The names of fields and associations are told apart and are no punctuation. -/
structure Entity.PlainNames (e : Entity) : Prop where
  distinct : (e.fields.map (·.name) ++ e.associations.map (·.name)).Nodup
  fields : ∀ f ∈ e.fields, IsPlainName f.name
  associations : ∀ a ∈ e.associations, IsPlainName a.name

instance (e : Entity) : Decidable e.PlainNames :=
  decidable_of_iff ((e.fields.map (·.name) ++ e.associations.map (·.name)).Nodup ∧
      (∀ f ∈ e.fields, IsPlainName f.name) ∧ ∀ a ∈ e.associations, IsPlainName a.name)
    ⟨fun ⟨hdistinct, hfields, hassociations⟩ => ⟨hdistinct, hfields, hassociations⟩,
      fun ⟨hdistinct, hfields, hassociations⟩ => ⟨hdistinct, hfields, hassociations⟩⟩

namespace Entity.PlainNames

variable {e : Entity}

/-- Plain names tell the fields apart. -/
theorem nodup_fields (h : e.PlainNames) : (e.fields.map (·.name)).Nodup :=
  (List.nodup_append.1 h.distinct).1

/-- And they tell the associations apart. -/
theorem nodup_associations (h : e.PlainNames) : (e.associations.map (·.name)).Nodup :=
  (List.nodup_append.1 h.distinct).2.1

/-- No association has the name of a field. -/
theorem fieldNamed?_eq_none (h : e.PlainNames) {a : Association} (ha : a ∈ e.associations) :
    e.fieldNamed? a.name = none := by
  refine List.find?_eq_none.2 fun f hf hname => ?_
  have hdisjoint := (List.nodup_append.1 h.distinct).2.2 f.name (List.mem_map_of_mem hf) a.name
    (List.mem_map_of_mem ha)
  exact hdisjoint (beq_iff_eq.1 hname)

/-- An association is found by its name. -/
theorem associationNamed?_eq (h : e.PlainNames) {a : Association} (ha : a ∈ e.associations) :
    e.associationNamed? a.name = some a :=
  (find?_eq_some_iff_of_nodup h.nodup_associations).2 ⟨ha, rfl⟩

end Entity.PlainNames

/-! ### Built schemas -/

/-- The targets of the to-one associations of an entity are known, with what tells their rows
    apart. -/
def Schema.Targets (schema : Schema) (e : Entity) : Prop :=
  ∀ a ∈ e.associations, a.isToOne = true →
    ∃ target key, schema.entity? a.target = some target ∧ target.idColumn = .ok key

/-- A built schema knows the targets of the associations of its entities. -/
theorem Schema.targets_of_build {entities : List Entity} (h : Schema.build entities = .ok schema) :
    ∀ e ∈ schema.entities, schema.Targets e := by
  obtain ⟨hconsistent, rfl⟩ := build_eq_ok_iff.1 h
  intro e he a ha _
  obtain ⟨target, htarget, hname⟩ := hconsistent.targets e he a ha
  obtain ⟨idField, hid⟩ := exists_idField (hconsistent.identified target htarget)
  exact ⟨target, idField.column, (entity?_eq_some_iff hconsistent).2 ⟨htarget, hname⟩,
    by simp [Entity.idColumn, hid]⟩

end EntityQuery
