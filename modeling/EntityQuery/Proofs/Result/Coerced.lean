import EntityQuery.Proofs.Result.Fields

namespace EntityQuery

/-!
# Values that survive storage

A value is changed twice on its way through a store: it is bound in its stored form and recovered by the
type of its field.  The mapper recovers the values of a compiled query once by label and once more by
field.

* A typed value comes back from its stored form (`ScalarType.typed_values_survive`), which for dates
  rests on `Date.parse_text`.
* Two recoveries are never more than one of them (`ScalarType.coerce_coerce`), because a value that the
  first one changes is left alone by every other.  Hence fields are read from a recovered row as they are
  from the row as it came (`Mapping.rootField_coerceRow`, `Mapping.fetchedField_coerceRow`), by one of
  the two types.
-/

namespace ScalarType

variable {type : ScalarType} {v raw : Value}

/-- A typed value has a stored form. -/
theorem Has.exists_store (h : type.Has v) : ∃ stored, v.store? = some stored := by
  cases h <;> exact ⟨_, rfl⟩

/-- A value that a type changes is changed by no type any more. -/
theorem coerce_changes (h : type.coerce raw = .ok v) :
    v = raw ∨ ∀ other : ScalarType, other.coerce v = .ok v := by
  unfold coerce at h
  -- One case for each rule of coercion; the last one leaves the value as it is.
  split at h
  · cases h
    exact .inr fun other => by cases other <;> rfl
  · split at h
    · cases h
      exact .inr fun other => by cases other <;> rfl
    · cases h
  · cases h
    exact .inr fun other => by cases other <;> rfl
  · cases h
    exact .inl rfl

/-- **Two recoveries are one**: the first if it changes the value, and otherwise the second. -/
theorem coerce_coerce (known field : ScalarType) (h : known.coerce raw = .ok v) :
    ∃ type, (type = field ∨ type = known) ∧ field.coerce v = type.coerce raw := by
  rcases coerce_changes h with rfl | hstays
  · exact ⟨field, .inl rfl, rfl⟩
  · exact ⟨known, .inr rfl, (hstays field).trans h.symm⟩

end ScalarType

/-! ### Fields of recovered rows -/

/-- Two readings of a field find the same, one by the type of the field and the other by that type or by
    the one that is known of its label. -/
def Field.ReadAlike (f : Field) (known : Option ScalarType)
    (recovered raw : Field → Except ReadFault (String × Value)) : Prop :=
  ∃ type, (type = f.type ∨ known = some type) ∧ recovered f = raw { f with type }

/-- Where nothing else is known, a field is read by its own type. -/
theorem Field.ReadAlike.eq {f : Field} {known : Option ScalarType}
    {recovered raw : Field → Except ReadFault (String × Value)} (h : f.ReadAlike known recovered raw)
    (hknown : ∀ type ∈ known, type = f.type) : recovered f = raw f := by
  obtain ⟨type, htype, heq⟩ := h
  obtain rfl : type = f.type := htype.elim id (hknown type)
  exact heq

namespace Mapping

variable {types : ColumnTypes} {row row' : Row} {e : Entity} {f : Field} {raw v : Value}

/-- Lists of values under the same labels, one for the other, have one for the other under each label. -/
theorem rel_lookup_zip {α β : Type} {R : String × α → β → Prop} {labels : List String} {as : List α}
    {bs : List β} (h : List.Forall₂ R (labels.zip as) bs) (label : String) :
    Option.Rel (fun a b => R (label, a) b) ((labels.zip as).lookup label)
      ((labels.zip bs).lookup label) := by
  induction labels generalizing as bs with
  | nil => exact .none
  | cons l labels ih =>
    cases as with
    | nil =>
      cases h
      exact .none
    | cons a as =>
      obtain ⟨b, bs, hab, hrest, rfl⟩ := List.forall₂_cons_left_iff.1 h
      rw [List.zip_cons_cons, List.zip_cons_cons, lookup_cons_ite, lookup_cons_ite]
      -- Both lists have the same labels, so both are found at the same place.
      by_cases hlabel : label = l
      · subst hlabel
        rw [if_pos rfl, if_pos rfl]
        exact .some hab
      · rw [if_neg hlabel, if_neg hlabel]
        exact ih hrest

/-- **A label of a recovered row has the recovered value of what it had.** -/
theorem rel_get?_coerceRow (h : coerceRow types row = .ok row') (label : String) :
    Option.Rel (fun raw v => types.read label raw = .ok v) (row.get? label) (row'.get? label) := by
  unfold coerceRow at h
  split at h
  · rename_i hempty
    rw [List.isEmpty_iff] at hempty
    subst hempty
    cases h
    cases row.get? label with
    | none => exact .none
    | some raw => exact .some rfl
  · obtain ⟨vs, hvs, h⟩ := bind_eq_ok_iff.1 h
    cases h
    exact rel_lookup_zip (listMapM_eq_ok_iff.1 hvs) label

/-- What a label had is found under it recovered, and another recovery makes one of the two. -/
theorem exists_get?_coerceRow (h : coerceRow types row = .ok row') {label : String}
    (hraw : row.get? label = some raw) (field : ScalarType) :
    ∃ v type, row'.get? label = some v ∧ (type = field ∨ types.lookup label = some type) ∧
      field.coerce v = type.coerce raw := by
  have hrel := rel_get?_coerceRow h label
  rw [hraw] at hrel
  cases hfound : row'.get? label with
  | none =>
    rw [hfound] at hrel
    cases hrel
  | some v =>
    rw [hfound, Option.rel_some_some] at hrel
    unfold ColumnTypes.read at hrel
    -- The label has a type of its own or none; in both cases the field's coercion comes last.
    split at hrel
    · rename_i known hknown
      obtain ⟨type, htype, heq⟩ := ScalarType.coerce_coerce known field hrel
      exact ⟨v, type, rfl, htype.imp_right fun htype => by rw [hknown, htype], heq⟩
    · cases hrel
      exact ⟨raw, field, rfl, .inl rfl, rfl⟩

/-- A field of the root that is found under its name. -/
theorem rootField_of_get? (h : row.get? f.name = some raw) :
    rootField e row f = do return (f.name, ← f.type.coerce raw) := by
  unfold rootField
  rw [h]

/-- A field of a fetched association that is found under its label. -/
theorem fetchedField_of_get? {association : String}
    (h : row.get? (association ++ "." ++ f.name) = some raw) :
    fetchedField association e row f = do return (f.name, ← f.type.coerce raw) := by
  unfold fetchedField
  simp only [h]

/-- A field of the root is read from a recovered row as from the row that came. -/
theorem rootField_coerceRow (h : coerceRow types row = .ok row')
    (hraw : row.get? f.name = some raw) :
    f.ReadAlike (types.lookup f.name) (rootField e row') (rootField e row) := by
  obtain ⟨v, type, hfound, htype, heq⟩ := exists_get?_coerceRow h hraw f.type
  refine ⟨type, htype, ?_⟩
  rw [rootField_of_get? hfound, heq]
  exact (rootField_of_get? (f := { f with type }) hraw).symm

/-- A field of a fetched association is read from a recovered row as from the row that came. -/
theorem fetchedField_coerceRow (h : coerceRow types row = .ok row') {association : String}
    (hraw : row.get? (association ++ "." ++ f.name) = some raw) :
    f.ReadAlike (types.lookup (association ++ "." ++ f.name)) (fetchedField association e row')
      (fetchedField association e row) := by
  obtain ⟨v, type, hfound, htype, heq⟩ := exists_get?_coerceRow h hraw f.type
  refine ⟨type, htype, ?_⟩
  rw [fetchedField_of_get? hfound, heq]
  exact (fetchedField_of_get? (f := { f with type }) hraw).symm

end Mapping

/-- **Typed values survive storage.**  Null and every value of a type come back from their stored form:
    all integers, all bit patterns of reals, all texts, both truth values and all dates of the calendar.
    A value that was recovered is not changed when its type recovers it again.  So the mapper, which
    recovers the columns of a compiled query by label and then the fields of records by field, reads each
    field as if its value was recovered once: by its own type, or by that of another column that shares
    its label, if there is one.  The fields of the root of a query for records are all among these.

    (A connection keeps no number that is none: see `ScalarType.exists_recover` for what it binds.) -/
theorem typed_values_survive :
    (∀ (type : ScalarType) v, type.Has v →
      ∃ stored, v.store? = some stored ∧ type.recover stored = .ok v) ∧
    (∀ (type : ScalarType) raw v, type.coerce raw = .ok v → type.coerce v = .ok v) ∧
    ∀ (schema : Schema) q s, Select.ofQuery schema q = .ok s →
      (∀ row row' : Row, row.columns = s.list.labels → row.values.length = row.columns.length →
        Mapping.coerceRow (s.compiled q).plan.types row = .ok row' →
        ∀ c ∈ s.list.columns, ∀ (e : Entity) (f : Field), c.type = some f.type →
          (c.label = f.name →
            f.ReadAlike (s.list.types.lookup c.label) (Mapping.rootField e row')
                (Mapping.rootField e row) ∧
              (s.list.OneType → Mapping.rootField e row' f = Mapping.rootField e row f)) ∧
          (∀ association, c.label = association ++ "." ++ f.name →
            f.ReadAlike (s.list.types.lookup c.label) (Mapping.fetchedField association e row')
                (Mapping.fetchedField association e row) ∧
              (s.list.OneType → Mapping.fetchedField association e row' f =
                Mapping.fetchedField association e row f))) ∧
      (q.target = .entity → ∀ f ∈ q.entity.fields,
        ⟨⟨0, f.column⟩, f.name, some f.type⟩ ∈ s.list.columns) := by
  refine ⟨fun type v hv => ?_, fun type raw v => ScalarType.coerce_of_coerce,
    fun schema q s hs => ⟨?_, fun records f hf => ?_⟩⟩
  · obtain ⟨stored, hstored⟩ := hv.exists_store
    exact ⟨stored, hstored, ScalarType.recover_store hv hstored⟩
  · intro row row' hcolumns hlength hrow c hc e f htype
    -- Every column has a value under its label, and of one type for each label it is that of `f`.
    have hlabelled : c.label ∈ row.columns := hcolumns ▸ List.mem_map_of_mem hc
    obtain ⟨raw, _, hraw⟩ := Row.exists_get? hlength hlabelled
    have hone : s.list.OneType → ∀ type ∈ s.list.types.lookup c.label, type = f.type := by
      intro hone type hknown
      rw [hone.lookup_types hc htype] at hknown
      exact (Option.some.inj hknown).symm
    constructor
    · intro hlabel
      have halike : f.ReadAlike (s.list.types.lookup c.label) (Mapping.rootField e row')
          (Mapping.rootField e row) := by
        rw [hlabel] at hraw ⊢
        exact Mapping.rootField_coerceRow hrow hraw
      exact ⟨halike, fun h => halike.eq (hone h)⟩
    · intro association hlabel
      have halike : f.ReadAlike (s.list.types.lookup c.label) (Mapping.fetchedField association e row')
          (Mapping.fetchedField association e row) := by
        rw [hlabel] at hraw ⊢
        exact Mapping.fetchedField_coerceRow hrow hraw
      exact ⟨halike, fun h => halike.eq (hone h)⟩
  · obtain ⟨rest, hcolumns⟩ := Select.columns_of_records records hs
    rw [hcolumns]
    exact List.mem_append_left _ (List.mem_map.2 ⟨f, hf, by rw [String.empty_append]⟩)

namespace Sample

/-- Something that happened on a day, long ago for most. -/
def event : Entity :=
  ((({ name := "Event", table := "event" } : Entity).withId "id" "event_id").withFieldIn
    "day" "day" .date true).withFieldIn "certain" "certain" .boolean true

/-- All events. -/
def events : Query where
  entity := event
  shape := .list

/-- A day before the common era. -/
def ides : Date := ⟨-43, 3, 15, by decide⟩

/-- A row as it comes from a store: days are texts and truth values are numbers. -/
def eventRow : Row := ⟨["id", "day", "certain"], [.integer 1, .text ides.text, .integer 1]⟩

end Sample

/-- A date before the common era, a truth value stored as an integer, and the fields of an event. -/
theorem typed_values_survive_events :
    (∃ stored, (Value.date Sample.ides).store? = some stored ∧
      ScalarType.date.recover stored = .ok (.date Sample.ides)) ∧
    ScalarType.boolean.coerce (.boolean true) = .ok (.boolean true) ∧
    ∃ s row', Select.ofQuery ⟨[Sample.event]⟩ Sample.events = .ok s ∧
      Mapping.coerceRow (s.compiled Sample.events).plan.types Sample.eventRow = .ok row' ∧
      ∀ f ∈ Sample.event.fields,
        Mapping.rootField Sample.event row' f = Mapping.rootField Sample.event Sample.eventRow f := by
  obtain ⟨survives, again, mapped⟩ := typed_values_survive
  -- The day is read back through the lemma for texts of dates; the other two values compute.
  have hday : ScalarType.date.coerce (.text Sample.ides.text) = .ok (.date Sample.ides) := by
    rw [ScalarType.coerce, Date.parse_text]
  obtain ⟨s, hs⟩ : ∃ s, Select.ofQuery ⟨[Sample.event]⟩ Sample.events = .ok s := ⟨_, rfl⟩
  have hlist : s.list = SelectList.unloaded Sample.event := by
    cases hs
    rfl
  obtain ⟨row', hrow⟩ : ∃ row', Mapping.coerceRow (s.compiled Sample.events).plan.types Sample.eventRow =
      .ok row' := by
    have htypes : (s.compiled Sample.events).plan.types = s.list.types := rfl
    rw [htypes, hlist, Mapping.exists_coerceRow_iff]
    have hpairs : Sample.eventRow.pairs =
        [("id", .integer 1), ("day", .text Sample.ides.text), ("certain", .integer 1)] := rfl
    simp only [hpairs, List.forall_mem_cons]
    exact ⟨⟨_, rfl⟩, ⟨_, hday⟩, ⟨_, rfl⟩, fun _ hnone => absurd hnone List.not_mem_nil⟩
  refine ⟨survives _ _ (.date _), again .boolean (.integer 1) _ rfl, s, row', hs, hrow, fun f hf => ?_⟩
  have hone : s.list.OneType := hlist ▸ SelectList.oneType_unloaded (by decide)
  have hlabels : Sample.eventRow.columns = s.list.labels := by
    rw [hlist]
    rfl
  obtain ⟨reads, fields⟩ := mapped _ _ s hs
  exact ((reads _ _ hlabels rfl hrow _ (fields rfl f hf) Sample.event f rfl).1 rfl).2 hone

end EntityQuery
