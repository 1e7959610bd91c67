import EntityQuery.Proofs.Plan.Fetching
import EntityQuery.Proofs.Result.Cells
import EntityQuery.Proofs.Schema.Entities

namespace EntityQuery

/-!
# Labels of records

The columns of a record are labelled after what they hold: a field or a foreign key, of the root or
of an association that is loaded with it.  A place (`Spot`) can be told from its label as long as no
name contains a dot or the marker of keys (`Spot.label_injective`), and the select list of an entity
has each place once, so no label is used twice (`SelectList.nodup_labels`).
-/

/-! ### Places and their labels -/

/-- What a column of a record holds: the value of a field, or the key of an association, of the root
    or of an association of the root. -/
@[ext] structure Spot where
  before : Option String
  isKey : Bool
  name : String

namespace Spot

/-- What stands in front of all labels of an association. -/
def prefixOf : Option String → String
  | none => ""
  | some association => association ++ "."

/-- The label of a place: the association it lies behind, whether it is a key, and its name. -/
def label (s : Spot) : String :=
  prefixOf s.before ++ (if s.isKey then keyMarker else "") ++ s.name

/-- A place whose names are plain. -/
structure Plain (s : Spot) : Prop where
  before (association : String) : s.before = some association → IsPlainName association
  name : IsPlainName s.name

/-- What stands behind the prefix: the name, with the marker in front of it for a key. -/
def marked (s : Spot) : List Char := if s.isKey then '@' :: s.name.toList else s.name.toList

/-- The characters of a label. -/
theorem toList_label (s : Spot) :
    s.label.toList = match s.before with
      | none => s.marked
      | some association => association.toList ++ '.' :: s.marked := by
  unfold label marked prefixOf keyMarker
  cases s.before <;> cases s.isKey <;> simp

/-- The last part of a plain label has no dot. -/
theorem Plain.dot_not_mem_marked {s : Spot} (h : s.Plain) : '.' ∉ s.marked := by
  unfold marked
  have hname := h.name.1
  split <;> simp [hname]

/-- The marker tells keys from fields. -/
theorem eq_of_marked_eq {s t : Spot} (hs : s.Plain) (ht : t.Plain) (h : s.marked = t.marked) :
    s.isKey = t.isKey ∧ s.name = t.name := by
  have hsName := hs.name.2
  have htName := ht.name.2
  unfold marked at h
  -- A mark tells a key from a field, since no plain name begins with one.
  cases hskey : s.isKey <;> cases htkey : t.isKey <;> rw [hskey, htkey] at h
  · exact ⟨rfl, String.toList_inj.1 h⟩
  · have h : s.name.toList = '@' :: t.name.toList := h
    rw [h] at hsName
    simp at hsName
  · have h : '@' :: s.name.toList = t.name.toList := h
    rw [← h] at htName
    simp at htName
  · exact ⟨rfl, String.toList_inj.1 (List.cons.inj h).2⟩

/-- **A place can be told from its label.** -/
theorem label_injective {s t : Spot} (hs : s.Plain) (ht : t.Plain) (h : s.label = t.label) :
    s = t := by
  have hlabels := congrArg String.toList h
  rw [toList_label, toList_label] at hlabels
  -- The first dot, if there is any, ends the name of the association.
  have hparts : s.before = t.before ∧ s.marked = t.marked := by
    cases hsb : s.before with
    | none =>
      cases htb : t.before with
      | none =>
        rw [hsb, htb] at hlabels
        dsimp only at hlabels
        exact ⟨rfl, hlabels⟩
      | some b =>
        rw [hsb, htb] at hlabels
        dsimp only at hlabels
        have hdot := hs.dot_not_mem_marked
        rw [hlabels] at hdot
        simp at hdot
    | some a =>
      cases htb : t.before with
      | none =>
        rw [hsb, htb] at hlabels
        dsimp only at hlabels
        have hdot := ht.dot_not_mem_marked
        rw [← hlabels] at hdot
        simp at hdot
      | some b =>
        rw [hsb, htb] at hlabels
        dsimp only at hlabels
        have ha := (hs.before a hsb).1
        obtain ⟨hname, _, hrest⟩ :=
          (List.append_cons_inj_of_notMem ha hs.dot_not_mem_marked).1 hlabels
        exact ⟨congrArg some (String.toList_inj.1 hname), hrest⟩
  obtain ⟨hkey, hname⟩ := eq_of_marked_eq hs ht hparts.2
  exact Spot.ext hparts.1 hkey hname

end Spot

/-! ### The places of a select list -/

namespace SelectList

variable {schema : Schema} {root : Entity} {plan : JoinPlan}

/-- The fields of an entity as places. -/
def fieldSpots (before : Option String) (e : Entity) : List Spot :=
  e.fields.map fun f => ⟨before, false, f.name⟩

/-- The foreign keys of an entity as places. -/
def keySpots (before : Option String) (as : List Association) : List Spot :=
  (as.filter (·.isToOne)).map fun a => ⟨before, true, a.name⟩

/-- The places of one to-one association of the root. -/
def partSpots (plan : JoinPlan) (a : Association) : List Spot :=
  match plan.fetching? (.single a.name) with
  | some (_, target) =>
    fieldSpots (some a.name) target ++ keySpots (some a.name) target.associations
  | none => keySpots none [a]

/-- The places of the select list of an entity. -/
def spots (plan : JoinPlan) (root : Entity) : List Spot :=
  fieldSpots none root ++ (root.associations.filter (·.isToOne)).flatMap (partSpots plan)

/-- The columns of an entity's fields have the labels of their places. -/
theorem label_fieldColumns (table : Nat) (before : Option String) (e : Entity) :
    (fieldColumns table (Spot.prefixOf before) e).map (·.label) =
      (fieldSpots before e).map Spot.label := by
  simp [fieldColumns, fieldSpots, Spot.label, Function.comp_def]

/-- So have those of its keys. -/
theorem label_keyColumns (table : Nat) (before : Option String) (as : List Association) :
    (as.filterMap (keyColumn table (Spot.prefixOf before))).map (·.label) =
      (keySpots before as).map Spot.label := by
  induction as with
  | nil => rfl
  | cons a as ih =>
    unfold keySpots at ih ⊢
    rw [List.filterMap_cons, List.filter_cons]
    cases hcolumn : a.joinColumn? with
    | none => simpa [keyColumn, Association.isToOne, hcolumn] using ih
    | some column => simpa [keyColumn, Association.isToOne, hcolumn, Spot.label] using ih

/-- And those that are read for an association. -/
theorem label_associationPart (a : Association) :
    (associationPart plan a).map (·.label) = (partSpots plan a).map Spot.label := by
  unfold associationPart partSpots
  cases plan.fetching? (.single a.name) with
  | some loaded =>
    obtain ⟨table, target⟩ := loaded
    dsimp only
    rw [List.map_append, List.map_append, ← label_fieldColumns table, ← label_keyColumns table]
    rfl
  | none =>
    dsimp only
    rw [← label_keyColumns 0]
    cases hkey : keyColumn 0 "" a <;> simp [Spot.prefixOf, hkey]

/-- The labels of the select list of an entity are those of its places. -/
theorem labels_ofPlan : (ofPlan plan root).labels = (spots plan root).map Spot.label := by
  unfold labels ofPlan spots
  rw [List.map_append, List.map_append, ← label_fieldColumns 0, List.map_flatMap, List.map_flatMap]
  simp only [label_associationPart]
  rfl

/-! ### Each place once -/

/-- Different fields have different places. -/
theorem nodup_fieldSpots {before : Option String} {e : Entity} (h : e.PlainNames) :
    (fieldSpots before e).Nodup := by
  unfold fieldSpots
  have hnames := h.nodup_fields
  refine List.Nodup.of_map Spot.name ?_
  rwa [List.map_map]

/-- So have different associations. -/
theorem nodup_keySpots {before : Option String} {as : List Association}
    (h : (as.map (·.name)).Nodup) : (keySpots before as).Nodup := by
  unfold keySpots
  refine List.Nodup.of_map Spot.name ?_
  rw [List.map_map]
  exact h.sublist (List.filter_sublist.map _)

/-- A field's place tells where it lies, that it is no key, and its name. -/
theorem mem_fieldSpots {before : Option String} {e : Entity} {s : Spot}
    (h : s ∈ fieldSpots before e) :
    s.before = before ∧ s.isKey = false ∧ ∃ f ∈ e.fields, s.name = f.name := by
  obtain ⟨f, hf, rfl⟩ := List.mem_map.1 h
  exact ⟨rfl, rfl, f, hf, rfl⟩

/-- So does a key's. -/
theorem mem_keySpots {before : Option String} {as : List Association} {s : Spot}
    (h : s ∈ keySpots before as) :
    s.before = before ∧ s.isKey = true ∧ ∃ a ∈ as, s.name = a.name := by
  obtain ⟨a, ha, rfl⟩ := List.mem_map.1 h
  exact ⟨rfl, rfl, a, (List.mem_filter.1 ha).1, rfl⟩

/-- Fields and keys of one entity are different places. -/
theorem disjoint_spots {before before' : Option String} {e : Entity} {as : List Association} :
    (fieldSpots before e).Disjoint (keySpots before' as) := by
  intro s hfield hkey
  have hisField := (mem_fieldSpots hfield).2.1
  have hisKey := (mem_keySpots hkey).2.1
  rw [hisField] at hisKey
  cases hisKey

/-- The places of an association of the root lie behind it or are its key. -/
theorem mem_partSpots {a : Association} {s : Spot} (h : s ∈ partSpots plan a) :
    s.before = some a.name ∨ (s.before = none ∧ s.isKey = true ∧ s.name = a.name) := by
  unfold partSpots at h
  split at h
  · rcases List.mem_append.1 h with h | h
    · exact .inl (mem_fieldSpots h).1
    · exact .inl (mem_keySpots h).1
  · obtain ⟨hbefore, hkey, b, hb, hname⟩ := mem_keySpots h
    obtain rfl := List.mem_singleton.1 hb
    exact .inr ⟨hbefore, hkey, hname⟩

/-- What the names of an entity and of the loaded associations have to be. -/
structure PlainFor (plan : JoinPlan) (root : Entity) : Prop where
  own : root.PlainNames
  loaded {a : Association} {table : Nat} {target : Entity} : a ∈ root.associations →
    plan.fetching? (.single a.name) = some (table, target) → target.PlainNames

/-- What is read for one association has different places. -/
theorem nodup_partSpots (h : PlainFor plan root) {a : Association} (ha : a ∈ root.associations) :
    (partSpots plan a).Nodup := by
  unfold partSpots
  split
  · rename_i hloaded
    have htarget := h.loaded ha hloaded
    rw [List.nodup_append']
    exact ⟨nodup_fieldSpots htarget, nodup_keySpots htarget.nodup_associations, disjoint_spots⟩
  · exact nodup_keySpots (List.nodup_singleton a.name)

/-- And so has all that is read. -/
theorem nodup_spots (h : PlainFor plan root) : (spots plan root).Nodup := by
  unfold spots
  rw [List.nodup_append', List.nodup_flatMap]
  refine ⟨nodup_fieldSpots h.own, ⟨fun a ha => nodup_partSpots h (List.mem_filter.1 ha).1, ?_⟩, ?_⟩
  · -- Associations with different names have no place in common.
    have hnames : (root.associations.filter (·.isToOne)).Pairwise fun a b => a.name ≠ b.name :=
      (List.pairwise_map.1 h.own.nodup_associations).sublist List.filter_sublist
    refine hnames.imp fun {a b} hne s ha hb => ?_
    rcases mem_partSpots ha with ha | ⟨ha, _, ha'⟩ <;>
      rcases mem_partSpots hb with hb | ⟨hb, _, hb'⟩
    · exact hne (Option.some.inj (ha.symm.trans hb))
    · rw [ha] at hb
      cases hb
    · rw [ha] at hb
      cases hb
    · exact hne (ha'.symm.trans hb')
  -- A place of a field is neither behind an association nor a key.
  · intro s hfield hpart
    obtain ⟨hbefore, hisField, _⟩ := mem_fieldSpots hfield
    obtain ⟨a, _, hs⟩ := List.mem_flatMap.1 hpart
    rcases mem_partSpots hs with hs | ⟨_, hs, _⟩
    · rw [hbefore] at hs
      cases hs
    · rw [hisField] at hs
      cases hs

/-- The places of plain fields are plain. -/
theorem plain_of_mem_fieldSpots {before : Option String} {e : Entity} {s : Spot}
    (h : e.PlainNames) (hs : s ∈ fieldSpots before e)
    (hbefore : ∀ association, before = some association → IsPlainName association) : s.Plain := by
  obtain ⟨rfl, _, f, hf, hname⟩ := mem_fieldSpots hs
  exact ⟨hbefore, hname ▸ h.fields f hf⟩

/-- So are those of plain keys. -/
theorem plain_of_mem_keySpots {before : Option String} {as : List Association} {s : Spot}
    (h : ∀ a ∈ as, IsPlainName a.name) (hs : s ∈ keySpots before as)
    (hbefore : ∀ association, before = some association → IsPlainName association) : s.Plain := by
  obtain ⟨rfl, _, a, ha, hname⟩ := mem_keySpots hs
  exact ⟨hbefore, hname ▸ h a ha⟩

/-- And so are all the places that are read. -/
theorem plain_of_mem_spots (h : PlainFor plan root) {s : Spot} (hs : s ∈ spots plan root) :
    s.Plain := by
  rcases List.mem_append.1 hs with hs | hs
  · exact plain_of_mem_fieldSpots h.own hs nofun
  · obtain ⟨a, ha, hs⟩ := List.mem_flatMap.1 hs
    have ha := (List.mem_filter.1 ha).1
    have hname := h.own.associations a ha
    unfold partSpots at hs
    -- A loaded association has places behind it, and any other one has its key.
    split at hs
    · rename_i hloaded
      have htarget := h.loaded ha hloaded
      have hbefore : ∀ association, some a.name = some association → IsPlainName association :=
        fun _ hsame => Option.some.inj hsame ▸ hname
      rcases List.mem_append.1 hs with hs | hs
      · exact plain_of_mem_fieldSpots htarget hs hbefore
      · exact plain_of_mem_keySpots htarget.associations hs hbefore
    · exact plain_of_mem_keySpots (List.forall_mem_singleton.2 hname) hs nofun

/-- **No label is used twice** in the select list of an entity. -/
theorem nodup_labels (h : PlainFor plan root) : (ofPlan plan root).labels.Nodup := by
  rw [labels_ofPlan]
  refine (nodup_spots h).map_on fun s hs t ht hlabel => ?_
  exact Spot.label_injective (plain_of_mem_spots h hs) (plain_of_mem_spots h ht) hlabel

end SelectList

end EntityQuery
