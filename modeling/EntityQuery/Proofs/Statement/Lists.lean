import EntityQuery.Proofs.Repository.ByExample
import EntityQuery.Proofs.Statement.Slots

namespace EntityQuery

/-!
# Lists in statements

A store takes single values only, so lists have to be written out or refused before they reach it.  Binding
does either for what a call gives: a list for a list of values becomes its items, and a list for one value
is a fault.  Two kinds of lists get past it: one that stands in the query itself where one value is
compared or assigned, and one that is an item of another (`Predicate.Test.PassesList`).
`lists_kept_out` says that there is no third kind, and `list_bound_by_example` that the two are real.
-/

variable {lookup : Slot → Except ParameterFault Value}

/-- What is a list has items. -/
theorem Value.isList_iff {v : Value} : v.isList = true ↔ ∃ items, v = .list items := by
  cases v <;> simp [isList]

/-! ### Holes that pass a list on -/

/-- A fragment binds a list as one value: it holds one, or one of its items is one. -/
def Fragment.PassesList (lookup : Slot → Except ParameterFault Value) : Fragment → Prop
  | .sql _ | .slot _ => False
  | .slotList s => ∃ items, lookup s = .ok (.list items) ∧ ∃ item ∈ items, item.isList = true
  | .value v => v.isList = true
  | .valueList items => ∃ item ∈ items, item.isList = true

/-- Among the values of a bound fragment is a list exactly if the fragment passes one on. -/
theorem Fragment.exists_list_iff {f : Fragment} {b : Bound} (h : f.bind lookup = .ok b) :
    (∃ v ∈ f.values lookup, v.isList = true) ↔ f.PassesList lookup := by
  cases f with
  | sql text => simp [values, pieces, PassesList]
  | value v => simp [values, pieces, PassesList]
  | valueList items => simp [values, pieces, PassesList]
  | slot s =>
    obtain ⟨v, hv, h⟩ := bind_eq_ok_iff.1 h
    have hvalues : values lookup (.slot s) = [v] := by
      rw [values, pieces, hv]
      rfl
    cases v with
    | list items => cases h
    | _ => simp [hvalues, PassesList, Value.isList]
  -- The items of the list are bound one by one, so what matters is whether one of them is a list again.
  | slotList s =>
    obtain ⟨v, hv, h⟩ := bind_eq_ok_iff.1 h
    have hvalues : values lookup (.slotList s) = v.items := by
      rw [values, pieces, hv]
      exact Piece.values_ofList _
    cases v <;> simp [hvalues, PassesList, hv, Value.items, Value.isList]

/-- What a bound statement does with lists: `singles` are its slots for one value, and `passed` says that
    the query passes a list on. -/
structure Statement.HandlesLists (s : Statement) (lookup : Slot → Except ParameterFault Value)
    (singles : List Slot) (passed : Prop) : Prop where
  /-- A list that is given for one value is refused. -/
  refused : ∀ slot ∈ singles, ∀ items, lookup slot = .ok (.list items) →
    ∃ fault, s.bind lookup = .error fault
  /-- Nothing else is, but that a value is missing. -/
  fault : ∀ fault, s.bind lookup = .error fault →
    ∃ slot, (slot ∈ s.slots ∧ lookup slot = .error fault) ∨
      (slot ∈ singles ∧ fault = .listForValue slot ∧ ∃ items, lookup slot = .ok (.list items))
  /-- A list is bound exactly if the query passes one on. -/
  bound : ∀ b, s.bind lookup = .ok b → ((∃ v ∈ b.values, v.isList = true) ↔ passed)

namespace Statement

variable {s : Statement} {singles : List Slot} {passed : Prop}

/-- **What a statement does with lists is what its holes do.** -/
theorem handlesLists (hsingles : ∀ slot, slot ∈ singles ↔ .slot slot ∈ s.holes)
    (hpassed : passed ↔ ∃ f ∈ s.holes, f.PassesList lookup) : s.HandlesLists lookup singles passed where
  refused slot hslot items hitems := by
    cases hbind : s.bind lookup with
    | error fault => exact ⟨fault, rfl⟩
    | ok b =>
      obtain ⟨part, hpart⟩ := exists_bind_iff.1 ⟨b, hbind⟩ _ ((hsingles slot).1 hslot)
      have hfails : Fragment.bind lookup (.slot slot) = .error (.listForValue slot) :=
        Fragment.bind_eq_fault_iff.2 (.inr ⟨slot, items, rfl, hitems, rfl⟩)
      exact absurd (hfails.symm.trans hpart) nofun
  fault fault h := by
    obtain ⟨f, hf, hfault⟩ := exists_hole_of_bind_error h
    rcases Fragment.bind_eq_fault_iff.1 hfault with
      ⟨slot, hslot, hlookup⟩ | ⟨slot, items, rfl, hitems, rfl⟩
    · exact ⟨slot, .inl ⟨slots_eq s ▸ List.mem_filterMap.2 ⟨f, hf, hslot⟩, hlookup⟩⟩
    · exact ⟨slot, .inr ⟨(hsingles slot).2 hf, rfl, items, hitems⟩⟩
  bound b h := by
    rw [hpassed, values_of_bind h]
    simp only [List.mem_flatMap]
    constructor
    · rintro ⟨v, ⟨f, hf, hv⟩, hlist⟩
      obtain ⟨part, hpart⟩ := exists_bind_iff.1 ⟨b, h⟩ f hf
      exact ⟨f, hf, (Fragment.exists_list_iff hpart).1 ⟨v, hv, hlist⟩⟩
    -- Every hole of a bound statement has been bound, so its values are among those bound.
    · rintro ⟨f, hf, hpasses⟩
      obtain ⟨part, hpart⟩ := exists_bind_iff.1 ⟨b, h⟩ f hf
      obtain ⟨v, hv, hlist⟩ := (Fragment.exists_list_iff hpart).2 hpasses
      exact ⟨v, ⟨f, hf, hv⟩, hlist⟩

/-- A window changes nothing about lists. -/
theorem handlesLists_window {w : Statement} {limit : Option Nat} {offset : Nat}
    (h : s.window limit offset = .ok w) (hsingles : ∀ slot, slot ∈ singles ↔ .slot slot ∈ s.holes)
    (hpassed : passed ↔ ∃ f ∈ s.holes, f.PassesList lookup) : w.HandlesLists lookup singles passed := by
  refine handlesLists (fun slot => ?_) ?_
  · simp [hsingles slot, holes_window h]
  · rw [hpassed, holes_window h]
    simp only [List.mem_append, List.mem_map, or_and_right, exists_or]
    refine (or_iff_left ?_).symm
    rintro ⟨_, ⟨v, hv, rfl⟩, hlist⟩
    obtain ⟨rows, _, rfl⟩ := List.mem_map.1 hv
    exact absurd hlist nofun

end Statement

/-! ### Tests and assignments -/

namespace Predicate

/-- A test passes a list on: it compares with a list that stands in the query, or an item of the list that
    it tests for membership is a list. -/
def Test.PassesList (lookup : Slot → Except ParameterFault Value) (t : Test) : Prop :=
  match t.operator with
  | .isNull | .isNotNull => False
  | .isIn => ∃ items, t.operand.value? lookup = some (.list items) ∧ ∃ item ∈ items, item.isList = true
  | _ => ∃ items, t.operand = .literal (.list items)

/-- The slots of a test for one value. -/
def Test.singles (t : Test) : List Slot := if t.operator = .isIn then [] else t.slots

/-- A test passes a list on exactly if what it leaves in a statement does. -/
theorem Test.passesList_iff (t : Test) : t.PassesList lookup ↔ ∃ f ∈ t.holes, f.PassesList lookup := by
  obtain ⟨path, operator, operand⟩ := t
  cases operand with
  | none => cases operator <;> simp [PassesList, holes, Operand.value?]
  | slot s =>
    cases operator <;>
      simp [PassesList, holes, Operand.value?, Fragment.PassesList, toOption_eq_some_iff]
  | literal v =>
    cases operator
    -- Membership in a literal list is written out item by item.
    case isIn =>
      cases v <;>
        simp [PassesList, holes, Operand.value?, Fragment.PassesList, Value.items, Value.isList]
    all_goals simp [PassesList, holes, Fragment.PassesList, Value.isList_iff]

/-- The single slots of a test are its holes for one value. -/
theorem Test.mem_singles_iff {t : Test} {slot : Slot} : slot ∈ t.singles ↔ .slot slot ∈ t.holes := by
  obtain ⟨path, operator, operand⟩ := t
  cases operand <;> cases operator <;> simp [singles, slots, holes, Operand.slots, Operator.arity]

/-- So are those of several tests. -/
theorem mem_singles_iff {ts : List Test} {slot : Slot} :
    slot ∈ ts.flatMap Test.singles ↔ .slot slot ∈ ts.flatMap Test.holes := by
  simp only [List.mem_flatMap, Test.mem_singles_iff]

/-- Tests pass a list on exactly if one of their holes does. -/
theorem exists_passesList_iff (ts : List Test) :
    (∃ t ∈ ts, t.PassesList lookup) ↔ ∃ f ∈ ts.flatMap Test.holes, f.PassesList lookup := by
  simp only [Test.passesList_iff, List.mem_flatMap]
  constructor
  · rintro ⟨t, ht, f, hf, h⟩
    exact ⟨f, ⟨t, ht, hf⟩, h⟩
  · rintro ⟨f, ⟨t, ht, hf⟩, h⟩
    exact ⟨t, ht, f, hf, h⟩

end Predicate

/-- An operand of an assignment passes a list on: it is one that stands in the query. -/
def Operand.PassesList (o : Operand) : Prop := ∃ items, o = .literal (.list items)

/-- An operand passes one on exactly if it is a literal list. -/
theorem Operand.passesList_iff (lookup : Slot → Except ParameterFault Value) (o : Operand) :
    o.PassesList ↔ ∃ f ∈ o.holes, f.PassesList lookup := by
  cases o <;> simp [PassesList, holes, Fragment.PassesList, Value.isList_iff]

/-- So do several operands. -/
theorem Operand.exists_passesList_iff (lookup : Slot → Except ParameterFault Value) (os : List Operand) :
    (∃ o ∈ os, o.PassesList) ↔ ∃ f ∈ os.flatMap Operand.holes, f.PassesList lookup := by
  simp only [passesList_iff lookup, List.mem_flatMap]
  constructor
  · rintro ⟨o, ho, f, hf, h⟩
    exact ⟨f, ⟨o, ho, hf⟩, h⟩
  · rintro ⟨f, ⟨o, ho, hf⟩, h⟩
    exact ⟨o, ho, f, hf, h⟩

/-- The slots of an operand are its holes for one value. -/
theorem Operand.mem_slots_iff {o : Operand} {slot : Slot} : slot ∈ o.slots ↔ .slot slot ∈ o.holes := by
  cases o <;> simp [slots, holes]

/-- A probe has no other predicate than the conjunction of what its fields ask for. -/
theorem ExampleMatcher.eq_all_of_predicate {m : ExampleMatcher} {probe : Probe} {e : Entity}
    {p : Option Predicate} (h : m.predicate probe e = .ok p) : p = Predicate.all (m.comparisons probe) := by
  unfold predicate at h
  split at h
  · cases h
  · obtain ⟨_, _, h⟩ := bind_eq_ok_iff.1 h
    exact (pure_eq_ok_iff.1 h).symm

/-- The tests of a probe pass a list on exactly if it has a list in a field that is not ignored. -/
theorem ExampleMatcher.exists_passesList_iff {m : ExampleMatcher} {probe : Probe} {e : Entity}
    {p : Option Predicate} (h : m.predicate probe e = .ok p) :
    (∃ t ∈ Predicate.optionalTests p, t.PassesList lookup) ↔
      ∃ entry ∈ probe.values, m.ignored.contains entry.1 = false ∧ entry.2.isList = true := by
  obtain rfl := eq_all_of_predicate h
  simp only [Predicate.optionalTests_all, List.mem_flatMap, mem_comparisons_iff]
  constructor
  · rintro ⟨t, ⟨q, ⟨entry, hentry, hcompared⟩, ht⟩, hpasses⟩
    -- A value is compared by equality, or tested for absence, and only the former keeps it.
    obtain ⟨hkept, ⟨_, rfl⟩ | ⟨_, _, rfl⟩⟩ := comparison?_eq_some_iff.1 hcompared <;>
      obtain rfl := List.mem_singleton.1 ht
    · obtain ⟨items, hitems⟩ := hpasses
      refine ⟨entry, hentry, by simpa using hkept, ?_⟩
      rw [Operand.literal.inj hitems]
      rfl
    · exact hpasses.elim
  · rintro ⟨⟨name, value⟩, hentry, hkept, hlist⟩
    obtain ⟨items, rfl⟩ := Value.isList_iff.1 hlist
    have hcompared : m.comparison? name (.list items) = some _ :=
      comparison?_eq_some_iff.2 ⟨by simpa using hkept, .inl ⟨nofun, rfl⟩⟩
    exact ⟨_, ⟨_, ⟨_, hentry, hcompared⟩, List.mem_singleton_self _⟩, items, rfl⟩

/-- **Lists are kept out of what is bound, unless the query itself passes one on.**  For the statements of
    a query, windowed or not, for an update or delete, and for text with its count, its order and its
    windows: a list that is given for one value is refused, and nothing is refused but for a missing value
    or such a list.  What is bound has a list as one of its values exactly if a test or an assignment
    compares or assigns a list that stands in the query, or an item of a list for membership is a list.
    Hence text never binds a list, and a probe does exactly if it has one. -/
theorem lists_kept_out (schema : Schema) :
    (∀ (q : Query) (c : Compiled) (statement windowed : Statement) (limit : Option Nat) (offset : Nat)
        (args : CallArguments),
      q.compile schema = .ok c → (c.content = statement ∨ c.count = some statement) →
      statement.window limit offset = .ok windowed →
      windowed.HandlesLists args.lookup
        ((Predicate.optionalTests q.predicate).flatMap Predicate.Test.singles)
        (∃ t ∈ Predicate.optionalTests q.predicate, t.PassesList args.lookup)) ∧
    (∀ (q : BulkQuery) (statement : Statement) (args : CallArguments),
      q.compile schema = .ok statement →
      statement.HandlesLists args.lookup
        (q.mutation.operands.flatMap Operand.slots ++
          (Predicate.optionalTests q.predicate).flatMap Predicate.Test.singles)
        ((∃ o ∈ q.mutation.operands, o.PassesList) ∨
          ∃ t ∈ Predicate.optionalTests q.predicate, t.PassesList args.lookup)) ∧
    (∀ (q : NativeQuery) (c : Compiled) (order : SortOrder) (statement windowed : Statement)
        (limit : Option Nat) (offset : Nat) (args : CallArguments),
      q.compile = .ok c → (c.orderNative order = .ok statement ∨ c.count = some statement) →
      statement.window limit offset = .ok windowed →
      windowed.HandlesLists args.lookup statement.slots False) ∧
    ∀ (m : ExampleMatcher) (probe : Probe) (e : Entity) (p : Option Predicate) (args : CallArguments),
      m.predicate probe e = .ok p →
      ((∃ t ∈ Predicate.optionalTests p, t.PassesList args.lookup) ↔
        ∃ entry ∈ probe.values, m.ignored.contains entry.1 = false ∧ entry.2.isList = true) := by
  refine ⟨?_, ?_, ?_, fun m probe e p args => ExampleMatcher.exists_passesList_iff⟩
  · intro q c statement windowed limit offset args hc hstatement hwindow
    obtain ⟨s, hs, hcompiled⟩ := bind_eq_ok_iff.1 hc
    obtain rfl := pure_eq_ok_iff.1 hcompiled
    have hholes := Select.holes_compiled hs hstatement
    refine Statement.handlesLists_window hwindow (fun slot => ?_) ?_
    · rw [hholes, Predicate.mem_singles_iff]
    · rw [hholes, Predicate.exists_passesList_iff]
  · intro q statement args hstatement
    have hholes := BulkQuery.holes_compile hstatement
    refine Statement.handlesLists (fun slot => ?_) ?_
    · rw [hholes, List.mem_append, List.mem_append, Predicate.mem_singles_iff]
      simp only [List.mem_flatMap, Operand.mem_slots_iff]
    · rw [hholes, Predicate.exists_passesList_iff, Operand.exists_passesList_iff args.lookup]
      simp only [List.mem_append, or_and_right, exists_or]
  · intro q c order statement windowed limit offset args hc hstatement hwindow
    have hslots : ∀ f ∈ statement.holes, ∃ index, f = .slot ⟨index, none⟩ :=
      NativeQuery.exists_slot_of_mem_holes hc hstatement
    refine Statement.handlesLists_window hwindow (fun slot => ?_) ?_
    · rw [Statement.slots_eq, List.mem_filterMap]
      constructor
      · rintro ⟨f, hf, hslot⟩
        obtain ⟨index, rfl⟩ := hslots f hf
        cases hslot
        exact hf
      · intro hslot
        exact ⟨_, hslot, rfl⟩
    · refine (iff_false_intro ?_).symm
      -- The slots of a native text take single values, and those refuse lists.
      rintro ⟨f, hf, hpasses⟩
      obtain ⟨index, rfl⟩ := hslots f hf
      exact hpasses

namespace Sample

/-- Members of some ages and older than given. -/
def membersOfAges : Query where
  entity := member
  shape := .list
  predicate := some (.and (.comparison ⟨["age"]⟩ .isIn (.slot ⟨0, none⟩))
    (.comparison ⟨["age"]⟩ .greaterThan (.slot ⟨1, none⟩)))

/-- A probe whose only value is a list. -/
def severalAges : Probe := ⟨"Member", [("age", .list [.integer 30, .integer 41])]⟩

end Sample

/-- A list for the membership, and a list for the comparison, which refuses it. -/
theorem lists_kept_out_ages :
    ∃ c w, Sample.membersOfAges.compile Sample.league = .ok c ∧ c.content.window (some 2) 0 = .ok w ∧
      (∃ b, w.bind ({ positional := [.list [.integer 30, .integer 41], .integer 35] } :
          CallArguments).lookup = .ok b ∧ ¬ ∃ v ∈ b.values, v.isList = true) ∧
      ∃ fault, w.bind ({ positional := [.list [.integer 30], .list [.integer 35]] } :
        CallArguments).lookup = .error fault := by
  obtain ⟨hselect, _⟩ := lists_kept_out Sample.league
  obtain ⟨c, hc, w, hw⟩ : ∃ c, Sample.membersOfAges.compile Sample.league = .ok c ∧
      ∃ w, c.content.window (some 2) 0 = .ok w := ⟨_, rfl, _, rfl⟩
  refine ⟨c, w, hc, hw, ?_, ?_⟩
  · obtain ⟨b, hb⟩ : ∃ b, w.bind ({ positional := [.list [.integer 30, .integer 41], .integer 35] } :
        CallArguments).lookup = .ok b := by
      cases hc
      cases hw
      exact ⟨_, rfl⟩
    refine ⟨b, hb, fun hlist => ?_⟩
    obtain ⟨t, ht, hpasses⟩ := ((hselect _ c _ w _ _ _ hc (.inl rfl) hw).bound b hb).1 hlist
    -- Of the two tests the first was given a list of integers and the second an integer.
    rcases List.mem_pair.1 ht with rfl | rfl
    · obtain ⟨items, hitems, item, hitem, hlist⟩ := hpasses
      cases hitems
      rcases List.mem_pair.1 hitem with rfl | rfl <;> cases hlist
    · obtain ⟨items, hitems⟩ := hpasses
      cases hitems
  · exact (hselect _ c _ w _ _ _ hc (.inl rfl) hw).refused ⟨1, none⟩ (.head _) [.integer 35] rfl

/-- **Lists that stand in the query, and items that are lists, are bound as they are.**  A probe with a list
    is compared with it as if it was one value, and so is an item of a list for membership.  Only the store
    refuses what was bound. -/
theorem list_bound_by_example :
    (∃ p c b, ({} : ExampleMatcher).predicate Sample.severalAges Sample.member = .ok p ∧
      Query.compile Sample.league { entity := Sample.member, shape := .list, predicate := p } = .ok c ∧
      c.content.bind ({} : CallArguments).lookup = .ok b ∧
      b.values = [.list [.integer 30, .integer 41]]) ∧
    (∃ c b, Sample.membersOfAges.compile Sample.league = .ok c ∧
      c.content.bind ({ positional := [.list [.list [.integer 30]], .integer 35] } :
        CallArguments).lookup = .ok b ∧
      b.values = [.list [.integer 30], .integer 35]) ∧
    ∀ items, Connection.bind (.list items) = .error (Connection.refuse Value.unstorable) :=
  ⟨⟨_, _, _, rfl, rfl, rfl, rfl⟩, ⟨_, _, rfl, rfl, rfl⟩, fun _ => rfl⟩

end EntityQuery
