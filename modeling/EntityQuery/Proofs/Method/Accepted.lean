import EntityQuery.Proofs.Method.Consumption
import EntityQuery.Proofs.Plan.Acceptance
import EntityQuery.Proofs.Schema.Longest

namespace EntityQuery

open Text

/-!
# Accepted descriptors

The query of a descriptor that is read is sound.  What it compares was checked while it was read
(`MethodQuery.checked_of_groups`).  What it sorts by was found by its words only, which leads to a
path that can be followed as long as no name is that of a field and of an association
(`IsProperty.resolve_iff`).
-/

variable {schema : Schema} {root : Entity} {path : Path}

/-! ### Names that are told apart -/

/-- No entity has a field and an association of one name. -/
def Schema.NamesApart (schema : Schema) : Prop :=
  ∀ e ∈ schema.entities, ∀ f ∈ e.fields, ∀ a ∈ e.associations, f.name ≠ a.name

instance (schema : Schema) : Decidable schema.NamesApart :=
  inferInstanceAs (Decidable (∀ e ∈ schema.entities, ∀ f ∈ e.fields, ∀ a ∈ e.associations,
    f.name ≠ a.name))

/-! ### What is read -/

namespace MethodQuery

/-- The query for whole records that a descriptor describes. -/
def query (q : MethodQuery) (root : Entity) (shape : Shape) : Query where
  entity := root
  shape := shape
  predicate := q.predicate
  order := q.order
  limit := q.limit
  distinct := q.distinct
  slots := q.slots

/-- **What is compared was checked**: each comparison of the criteria is one of a property that its
    operator can be asked of. -/
theorem checked_of_groups {slot : Nat} {words : List String} {found : List (List Predicate)}
    (h : groups schema root slot words = .ok found) :
    ∀ group ∈ found, ∀ p ∈ group, ∃ path operator slot, p = comparison path operator slot ∧
      checkComparison schema root path operator = .ok () := by
  -- Reading goes on behind a comparison and its joiner, so the induction is on the number of words.
  induction hlength : words.length using Nat.strongRecOn generalizing slot words found with
  | ind length ih =>
  subst hlength
  rw [groups] at h
  split at h
  · cases h
  rename_i path used _
  obtain ⟨_, hchecked, h⟩ := bind_eq_ok_iff.1 h
  have hfirst : ∃ path' operator slot',
      comparison path (takeOperator (words.drop used)).1 slot = comparison path' operator slot' ∧
        checkComparison schema root path' operator = .ok () := ⟨path, _, slot, rfl, hchecked⟩
  split at h
  · cases h
    exact List.forall_mem_singleton.2 (List.forall_mem_singleton.2 hfirst)
  rename_i joiner more hrest
  split at h
  · cases h
  split at h
  · cases h
  obtain ⟨others, hothers, h⟩ := bind_eq_ok_iff.1 h
  have hshorter : more.length < words.length := by
    have hle := length_takeOperator_le (words.drop used)
    rw [hrest, List.length_drop, List.length_cons] at hle
    omega
  have hmore := ih _ hshorter hothers rfl
  split at h
  · -- The comparison joins the first of the groups behind it.
    cases h
    cases others with
    | nil => exact List.forall_mem_singleton.2 (List.forall_mem_singleton.2 hfirst)
    | cons group others =>
      rw [List.forall_mem_cons] at hmore
      exact List.forall_mem_cons.2 ⟨List.forall_mem_cons.2 ⟨hfirst, hmore.1⟩, hmore.2⟩
  · cases h
    exact List.forall_mem_cons.2 ⟨List.forall_mem_singleton.2 hfirst, hmore⟩

/-- A comparison that was checked is sound. -/
theorem sound_of_checkComparison {operator : Operator} {slot : Nat}
    (hroot : schema.entity? root.name = some root)
    (h : checkComparison schema root path operator = .ok ()) :
    ∀ t ∈ (comparison path operator slot).tests, t.Sound schema root := by
  refine List.forall_mem_singleton.2 ⟨?_, fun harity => ?_⟩
  · unfold checkComparison at h
    rw [hroot] at h
    dsimp only at h
    obtain ⟨r, hlift, h⟩ := bind_eq_ok_iff.1 h
    have hr : schema.resolve root path = .ok r := mapError_eq_ok_iff.1 hlift
    refine ⟨r, hr, fun a ha => ?_⟩
    have hends := Resolution.association?_eq_some_iff.1 ha
    -- The check lets an association through only for a test without an operand, and only to one record.
    split at h
    · rename_i hterminal
      cases hterminal.symm.trans hends
    · rename_i hterminal
      cases hterminal.symm.trans hends
      split at h
      · rename_i htests
        exact (Bool.and_eq_true_iff.1 htests).1
      · cases h
  · show (if operator.arity = 1 then Operand.slot ⟨slot, none⟩ else .none) ≠ .none
    rw [if_pos harity]
    exact nofun

/-- The predicate of a descriptor is made up of comparisons that were checked. -/
theorem sound_of_predicateOf {words : List String} {predicate : Option Predicate}
    (hroot : schema.entity? root.name = some root)
    (h : predicateOf schema root words = .ok predicate) :
    ∀ p ∈ predicate, ∀ t ∈ p.tests, t.Sound schema root := by
  unfold predicateOf at h
  split at h
  · cases h
    exact nofun
  obtain ⟨found, hfound, h⟩ := bind_eq_ok_iff.1 h
  cases h
  intro p hp t ht
  -- A test of the whole is one of some comparison of some group, and each of those was checked.
  obtain ⟨conjunction, hconjunction, ht⟩ := Predicate.exists_of_mem_tests_any hp ht
  obtain ⟨group, hgroup, hall⟩ := List.mem_filterMap.1 hconjunction
  obtain ⟨c, hc, ht⟩ := Predicate.exists_of_mem_tests_all hall ht
  obtain ⟨path, operator, slot, rfl, hchecked⟩ := checked_of_groups hfound group hgroup c hc
  exact sound_of_checkComparison hroot hchecked t ht

/-- The paths of an order are found by words, and can be followed. -/
theorem exists_resolve_of_order (hnames : schema.NamesApart) (hroot : root ∈ schema.entities)
    {order : Option (List Char)} {found : SortOrder}
    (h : (match order with
      | some text => orderOf schema root (Text.words (String.ofList text))
      | none => pure []) = .ok found) :
    ∀ d ∈ found, ∃ r, schema.resolve root d.path = .ok r := by
  obtain ⟨clauses, hfound, hwords, rfl⟩ := exists_sortClauses_of_order h
  intro d hd
  obtain ⟨c, hc, rfl⟩ := List.mem_map.1 hd
  have hproperty := (hfound c hc).isProperty
  refine (hproperty.isProperty.resolve_iff (hnames root hroot)).2 ?_
  refine hproperty.segments_ne_empty fun w hw => ?_
  have hword : w ∈ Text.words (String.ofList (order.getD [])) := by
    rw [hwords]
    exact List.mem_flatMap.2 ⟨c, hc, List.mem_append_left _ hw⟩
  exact ne_empty_of_mem_words hword

/-- **An accepted descriptor describes a sound query**, whatever its shape. -/
theorem sound_of_parse {name text : String} {q : MethodQuery} (hnames : schema.NamesApart)
    (hroot : schema.entity? name = some root) (h : parse schema root text = .ok q) (shape : Shape) :
    (q.query root shape).Sound schema := by
  have hmem := Schema.mem_entities_of_entity? hroot
  have hself : schema.entity? root.name = some root := Schema.entity?_name hroot
  obtain ⟨d, _, hread⟩ := exists_readFrom_of_parse h
  exact {
    registered := hmem
    joins := nofun
    tests := sound_of_predicateOf hself hread.predicate
    order := exists_resolve_of_order hnames hmem hread.order
    selections := nofun
    target := .inl rfl }

end MethodQuery

end EntityQuery
