import EntityQuery.Proofs.Plan.Acceptance
import EntityQuery.Proofs.Result.Fields
import EntityQuery.Proofs.Rows.Honoured
import EntityQuery.Repository.Probe

namespace EntityQuery

open JoinPlan

/-!
# Rows like an example

A query by example selects the rows that are equal to the probe in every field that it compares
(`ExampleMatcher.selects_alike`).  What equality is, is left to the store (`Meaning.Equality`), as long as
everything that can be stored equals itself.  A record that was mapped from a row with values of the
declared types is such a probe for its own row, because its values are bound as what is stored there.

The empty name is no path, and a record has only one value for all fields of one name.  So compared
fields need names, and fields that share one also have to share a type
(`ExampleMatcher.not_found_by_example`).
-/

variable {schema : Schema} {e : Entity} {M : Meaning} {db : Database schema} {start : TableRow}
variable {name : String} {f : Field}

/-- What a store takes for equal: the forms that values are bound as are compared, and each equals itself
    but null. -/
structure Meaning.Equality (M : Meaning) (equal : Stored → Stored → Prop) : Prop where
  bound : ∀ {v b}, Connection.bind v = .ok b →
    ∀ a, M.compare .equals a (.value v) = .yes ↔ equal a b
  self : ∀ {v b}, Connection.bind v = .ok b → b ≠ .null → equal b b

/-- A boolean is the truth value it is. -/
theorem Truth.ofBool_eq_yes_iff {b : Bool} : Truth.ofBool b = .yes ↔ b = true := by
  cases b <;> decide

/-! ### Conjunctions -/

namespace Predicate

/-- A conjunction holds exactly if all of its parts do. -/
theorem eval_foldl_and {p : Predicate} {ps : List Predicate} {read : Path → Stored} :
    (ps.foldl and p).eval M read = .yes ↔ ∀ p' ∈ p :: ps, p'.eval M read = .yes := by
  induction ps generalizing p with
  | nil =>
    rw [List.forall_mem_singleton]
    rfl
  | cons p' ps ih =>
    rw [List.foldl_cons, ih, List.forall_mem_cons, eval, Truth.and_eq_yes_iff, List.forall_mem_cons,
      List.forall_mem_cons, and_assoc]

end Predicate

/-- A conjunction holds of a row if its parts do; if it has none, it holds of every row. -/
theorem Query.holds_all_iff {q : Query} {ps : List Predicate} (hp : q.predicate = Predicate.all ps) :
    q.holds M db start = true ↔ ∀ p ∈ ps, p.eval M (db.read q.entity start) = .yes := by
  rw [Query.holds, hp]
  cases ps with
  | nil => exact iff_of_true rfl (List.forall_mem_nil _)
  | cons p ps => exact decide_eq_true_iff.trans Predicate.eval_foldl_and

/-! ### Fields of the root -/

/-- A field of the root is found, unless its name is empty. -/
theorem Schema.resolve_single (hname : name ≠ "") (hf : e.fieldNamed? name = some f) :
    schema.resolve e (.single name) = .ok ⟨.single name, [], e, .field f⟩ := by
  simp [resolve, follow, Path.single, hname, hf]

/-! ### Probes -/

/-- A probe of an entity: its fields are declared there, and none of its values is a list. -/
structure Probe.Over (probe : Probe) (e : Entity) : Prop where
  entity : probe.entity = e.name
  declared : ∀ entry ∈ probe.values, ∃ f, e.fieldNamed? entry.1 = some f
  single : ∀ entry ∈ probe.values, entry.2.isList = false

namespace ExampleMatcher

variable {m : ExampleMatcher} {probe : Probe} {equal : Stored → Stored → Prop} {value : Value}

/-- What the value of a probe asks of what is stored for its field: nothing if the field is ignored, and
    for null only if nulls are included. -/
def Admits (m : ExampleMatcher) (equal : Stored → Stored → Prop) (name : String) (value : Value)
    (stored : Stored) : Prop :=
  name ∉ m.ignored →
    (value = .null → m.includesNulls = true → stored = .null) ∧
    (value ≠ .null → ∃ bound, Connection.bind value = .ok bound ∧ equal stored bound)

/-- A row is like a probe if this is so of all its fields. -/
def Alike (m : ExampleMatcher) (equal : Stored → Stored → Prop) (e : Entity) (probe : Probe)
    (start : TableRow) : Prop :=
  ∀ entry ∈ probe.values, ∀ f, e.fieldNamed? entry.1 = some f →
    m.Admits equal entry.1 entry.2 (start f.column)

/-- Every field of a probe that is compared has a name. -/
def ComparesNamed (m : ExampleMatcher) (probe : Probe) : Prop :=
  ∀ entry ∈ probe.values, (m.comparison? entry.1 entry.2).isSome = true → entry.1 ≠ ""

/-- The predicate of a probe compiles, whatever is read of the rows, and it selects the rows that it holds
    of. -/
def Selects (m : ExampleMatcher) (M : Meaning) (db : Database schema) (e : Entity) (probe : Probe)
    (holds : TableRow → Bool) : Prop :=
  ∃ p, m.predicate probe e = .ok p ∧ ∀ shape, ∃ s,
    Select.ofQuery schema { entity := e, shape, predicate := p } = .ok s ∧
    s.roots M db (s.contentPlan shape) = (db.rows e.table).filter holds ∧
    ∀ row, Query.holds M db { entity := e, shape, predicate := p } row = holds row

/-- Only the absent value is absent. -/
theorem isNull_iff : value.isNull = true ↔ value = .null := by
  cases value <;> simp [Value.isNull]

/-- The three ways to deal with a field of a probe. -/
theorem comparison?_eq_some_iff {p : Predicate} :
    m.comparison? name value = some p ↔ name ∉ m.ignored ∧
      (value ≠ .null ∧ p = .comparison (.single name) .equals (.literal value) ∨
        value = .null ∧ m.includesNulls = true ∧ p = .comparison (.single name) .isNull .none) := by
  unfold comparison?
  by_cases hignored : name ∈ m.ignored
  · simp [hignored]
  by_cases hnull : value = .null
  · subst hnull
    simp [hignored, Value.isNull, eq_comm (a := p)]
  · have hvalue : value.isNull = false := Bool.eq_false_iff.2 fun h => hnull (isNull_iff.1 h)
    simp [hignored, hnull, hvalue, eq_comm (a := p)]

/-- **One field of a probe**: what is compared holds of a row exactly if it is what the probe asks for. -/
theorem eval_comparison?_iff (hM : M.Equality equal) (hsingle : value.isList = false)
    (hf : e.fieldNamed? name = some f) (hnamed : (m.comparison? name value).isSome = true → name ≠ "") :
    (∀ p ∈ m.comparison? name value, p.eval M (db.read e start) = .yes) ↔
      m.Admits equal name value (start f.column) := by
  -- A comparison of the field tests what is stored in its column.
  have htest : ∀ {p operator operand}, m.comparison? name value = some p →
      p = .comparison (.single name) operator operand →
      p.eval M (db.read e start) = M.test operator operand (start f.column) := by
    rintro _ operator operand hsome rfl
    have hname := hnamed (by rw [hsome]; rfl)
    rw [Predicate.eval, db.read_single hf ⟨_, Schema.resolve_single hname hf⟩]
  obtain ⟨bound, hbound⟩ := Connection.exists_bind hsingle
  constructor
  · refine fun hholds hkept => ⟨fun hnull hincludes => ?_, fun hvalue => ⟨bound, hbound, ?_⟩⟩
    · have hsome := comparison?_eq_some_iff.2 ⟨hkept, .inr ⟨hnull, hincludes, rfl⟩⟩
      have heval := hholds _ hsome
      rw [htest hsome rfl, Meaning.test, Truth.ofBool_eq_yes_iff] at heval
      exact of_decide_eq_true heval
    · have hsome := comparison?_eq_some_iff.2 ⟨hkept, .inl ⟨hvalue, rfl⟩⟩
      have heval := hholds _ hsome
      rw [htest hsome rfl] at heval
      exact (hM.bound hbound _).1 heval
  · intro hadmits p hp
    obtain ⟨hkept, ⟨hvalue, rfl⟩ | ⟨hnull, hincludes, rfl⟩⟩ := comparison?_eq_some_iff.1 hp
    · obtain ⟨bound', hbound', hequal⟩ := (hadmits hkept).2 hvalue
      rw [htest hp rfl]
      exact (hM.bound hbound' _).2 hequal
    · rw [htest hp rfl, Meaning.test, Truth.ofBool_eq_yes_iff]
      exact decide_eq_true ((hadmits hkept).1 hnull hincludes)

/-- Every test of a predicate by example is one of a field of the entity. -/
theorem sound_of_comparison? {p : Predicate} (hp : m.comparison? name value = some p)
    (hf : e.fieldNamed? name = some f) (hname : name ≠ "") :
    ∀ t ∈ p.tests, t.Sound schema e := by
  have hresolve : schema.resolve e (.single name) = _ := Schema.resolve_single hname hf
  obtain ⟨_, ⟨_, rfl⟩ | ⟨_, _, rfl⟩⟩ := comparison?_eq_some_iff.1 hp
  · refine List.forall_mem_singleton.2 ⟨⟨_, hresolve, nofun⟩, nofun⟩
  · refine List.forall_mem_singleton.2 ⟨⟨_, hresolve, nofun⟩, nofun⟩

/-- What the fields of a probe ask for. -/
def comparisons (m : ExampleMatcher) (probe : Probe) : List Predicate :=
  probe.values.filterMap fun entry => m.comparison? entry.1 entry.2

/-- The comparisons of a probe are those of its values that are not left out. -/
theorem mem_comparisons_iff {p : Predicate} : p ∈ m.comparisons probe ↔
    ∃ entry ∈ probe.values, m.comparison? entry.1 entry.2 = some p :=
  List.mem_filterMap

/-- A probe of the entity has a predicate: the conjunction of what its fields ask for. -/
theorem predicate_of_over (hprobe : probe.Over e) :
    m.predicate probe e = .ok (Predicate.all (m.comparisons probe)) := by
  have hchecks : probe.values.forM (fun entry => checkField e entry.1) = .ok () := by
    refine forM_eq_ok_iff.2 fun entry hentry => ?_
    obtain ⟨f, hf⟩ := hprobe.declared entry hentry
    rw [checkField, hf]
    rfl
  unfold predicate
  rw [if_neg (not_not.2 hprobe.entity)]
  exact bind_eq_ok_iff.2 ⟨(), hchecks, rfl⟩

/-- Each of them is about a field of the entity. -/
theorem sound_of_mem_comparisons (hprobe : probe.Over e) (hnamed : m.ComparesNamed probe) {p : Predicate}
    (hp : p ∈ m.comparisons probe) : ∀ t ∈ p.tests, t.Sound schema e := by
  obtain ⟨entry, hentry, hcompared⟩ := mem_comparisons_iff.1 hp
  obtain ⟨f, hf⟩ := hprobe.declared entry hentry
  exact sound_of_comparison? hcompared hf (hnamed entry hentry (by rw [hcompared]; rfl))

/-- Part by part, what is compared holds of a row if the probe admits the row. -/
theorem eval_comparisons_iff (hM : M.Equality equal) (hprobe : probe.Over e)
    (hnamed : m.ComparesNamed probe) :
    (∀ p ∈ m.comparisons probe, p.eval M (db.read e start) = .yes) ↔ m.Alike equal e probe start := by
  have hfield : ∀ entry ∈ probe.values, ∀ f, e.fieldNamed? entry.1 = some f →
      ((∀ p ∈ m.comparison? entry.1 entry.2, p.eval M (db.read e start) = .yes) ↔
        m.Admits equal entry.1 entry.2 (start f.column)) := fun entry hentry f hf =>
    eval_comparison?_iff hM (hprobe.single entry hentry) hf (hnamed entry hentry)
  constructor
  · intro hholds entry hentry f hf
    exact (hfield entry hentry f hf).1 fun p hp => hholds p (mem_comparisons_iff.2 ⟨entry, hentry, hp⟩)
  · intro halike p hp
    obtain ⟨entry, hentry, hcompared⟩ := mem_comparisons_iff.1 hp
    obtain ⟨f, hf⟩ := hprobe.declared entry hentry
    exact (hfield entry hentry f hf).2 (halike entry hentry f hf) p hcompared

end ExampleMatcher

/-! ### Queries without joins of their own -/

/-- A query for records has a statement, if what its predicate tests can be tested. -/
theorem exists_select_of_tests (hschema : schema.Checked) (he : e ∈ schema.entities) (shape : Shape)
    {p : Option Predicate} (htests : ∀ part ∈ p, ∀ t ∈ part.tests, t.Sound schema e) :
    ∃ s, Select.ofQuery schema { entity := e, shape, predicate := p } = .ok s := by
  have hsound : ({ entity := e, shape, predicate := p } : Query).Sound schema :=
    ⟨he, by simp, htests, by simp, by simp, .inl rfl⟩
  obtain ⟨c, hc⟩ := hsound.compiles hschema (by simp) (by simp)
  obtain ⟨s, hs, _⟩ := bind_eq_ok_iff.1 hc
  exact ⟨s, hs⟩

/-- The predicate of such a query decides which rows it selects. -/
theorem Select.PlannedFor.roots_eq_filter_holds {q : Query} {s : Select} {plan : JoinPlan}
    (h : PlannedFor schema q s) (hplan : Decides schema q s plan) (hjoins : q.joins = []) :
    s.roots M db plan = (db.rows q.entity.table).filter (q.holds M db) := by
  rw [h.roots_eq_filter hplan]
  exact List.filter_congr fun row _ => by simp [h.keeps_iff M db hjoins]

namespace ExampleMatcher

variable {m : ExampleMatcher} {probe : Probe} {equal : Stored → Stored → Prop}

/-- **A probe stands for the rows that are like it.** -/
theorem selects_of_over (db : Database schema) (hschema : schema.Checked) (he : e ∈ schema.entities)
    (hM : M.Equality equal) (hprobe : probe.Over e) (hnamed : m.ComparesNamed probe) :
    ∃ holds, m.Selects M db e probe holds ∧ ∀ row, holds row = true ↔ m.Alike equal e probe row := by
  have htests : ∀ p ∈ Predicate.all (m.comparisons probe), ∀ t ∈ p.tests, t.Sound schema e := by
    intro p hp t ht
    obtain ⟨part, hpart, ht⟩ := Predicate.exists_of_mem_tests_all hp ht
    exact sound_of_mem_comparisons hprobe hnamed hpart t ht
  refine ⟨Query.holds M db { entity := e, shape := .list, predicate := Predicate.all (m.comparisons probe) },
    ⟨_, predicate_of_over hprobe, fun shape => ?_⟩, fun row => ?_⟩
  · obtain ⟨s, hs⟩ := exists_select_of_tests hschema he shape htests
    have hplanned := Select.plannedFor_of_ofQuery hs
    exact ⟨s, hs, hplanned.roots_eq_filter_holds (hplanned.decides_contentPlan shape) rfl, fun _ => rfl⟩
  · rw [Query.holds_all_iff rfl]
    exact eval_comparisons_iff hM hprobe hnamed

/-- **A mapped record is like its own row**, since what is bound for its values is what is stored. -/
theorem alike_ofRecord (hM : M.Equality equal) {q : Query} {s : Select} {r : Record}
    (h : r.MappedBy schema q s start) (htypes : s.list.OneType) (htyped : q.entity.Types start) :
    (Probe.ofRecord r).Over q.entity ∧ m.Alike equal q.entity (.ofRecord r) start := by
  obtain ⟨hentity, hfields⟩ := h.fields htypes
  -- A value that was read has the type of its field, and binding it gives back what is stored.
  have hvalues : ∀ entry ∈ r.fields, ∃ f, q.entity.fieldNamed? entry.1 = some f ∧
      f.type.Has entry.2 ∧ Connection.bind entry.2 = .ok (start f.column) ∧
      (entry.2 = .null ↔ start f.column = .null) := by
    intro entry hentry
    obtain ⟨f, hf, hholds⟩ := hfields entry hentry
    obtain ⟨v, hv, hbound⟩ := htyped.fields f (Entity.mem_of_fieldNamed? hf).1
    obtain ⟨v', hrecover, hhas, hbound'⟩ := ScalarType.exists_recover hv hbound
    obtain rfl := Except.ok.inj (hrecover.symm.trans hholds)
    exact ⟨f, hf, hhas, hbound', ScalarType.recover_eq_null_iff hrecover⟩
  refine ⟨⟨hentity, fun entry hentry => ?_, fun entry hentry => ?_⟩, fun entry hentry f hf _ => ?_⟩
  · obtain ⟨f, hf, _⟩ := hvalues entry hentry
    exact ⟨f, hf⟩
  · obtain ⟨_, _, hhas, _⟩ := hvalues entry hentry
    exact hhas.isList
  · obtain ⟨g, hg, _, hbound, hnull⟩ := hvalues entry hentry
    obtain rfl := Option.some.inj (hf.symm.trans hg)
    exact ⟨fun hvalue _ => hnull.1 hvalue,
      fun hvalue => ⟨_, hbound, hM.self hbound fun hstored => hvalue (hnull.2 hstored)⟩⟩

/-- **Query by example.**  For every probe of an entity, whatever is ignored and whether nulls are included
    or not, the predicate compiles, and it holds of exactly the rows that are like the probe, as long as every
    field that it compares has a name.  A row with values of the declared types has a record, if fields of
    one name have one type, and every record that is mapped from it finds it again, if columns of one label
    are read as one type. -/
theorem selects_alike {entities : List Entity} (hbuilt : Schema.build entities = .ok schema)
    (he : e ∈ schema.entities) (db : Database schema) (hM : M.Equality equal) :
    (∀ (m : ExampleMatcher) (probe : Probe), probe.Over e → m.ComparesNamed probe →
      ∃ holds, m.Selects M db e probe holds ∧
        ∀ row, holds row = true ↔ m.Alike equal e probe row) ∧
    ∀ start, e.Types start →
      (e.OneType → ∃ s r, s.list.OneType ∧
        Record.MappedBy schema { entity := e, shape := .list } s start r) ∧
      ∀ q s r, q.entity = e → Record.MappedBy schema q s start r → s.list.OneType →
        ∀ m : ExampleMatcher, m.ComparesNamed (.ofRecord r) →
          ∃ holds, m.Selects M db e (.ofRecord r) holds ∧ holds start = true := by
  have hschema := Schema.checked_of_build hbuilt
  refine ⟨fun m probe => selects_of_over db hschema he hM, fun start htyped => ⟨fun htypes => ?_, ?_⟩⟩
  -- Without a condition every entity of a checked schema can be selected.
  · obtain ⟨s, hs⟩ := exists_select_of_tests hschema he .list (p := none) (by simp)
    obtain ⟨hone, r, hr⟩ := Entity.Types.exists_mappedBy htyped rfl (fun _ => rfl) hs htypes
    exact ⟨s, r, hone, hr⟩
  · rintro q s r rfl hmapped htypes m hnamed
    obtain ⟨hover, halike⟩ := alike_ofRecord (m := m) hM hmapped htypes htyped
    obtain ⟨holds, hselects, hiff⟩ := selects_of_over db hschema he hM hover hnamed
    exact ⟨holds, hselects, (hiff start).2 halike⟩

end ExampleMatcher

/-! ### Examples -/

namespace Sample

/-- What is stored is compared as it is; of all other comparisons nothing is known, and no list has
    members. -/
def storedMeaning : Meaning where
  compare
    | .equals, a, .value v =>
      match Connection.bind v with
      | .ok b => .ofBool (a.Equals b)
      | .error _ => .unknown
    | _, _, _ => .unknown
  member _ _ := .no
  compare_null operator term := by
    split
    · split
      · exact fun h => (of_decide_eq_true (Truth.ofBool_eq_yes_iff.1 h)).1 rfl
      · exact nofun
    · exact nofun
  member_null _ := nofun

/-- The meaning by stored values tells apart what differs. -/
theorem equality_storedMeaning : storedMeaning.Equality Stored.Equals where
  bound hbound a := by simp [storedMeaning, hbound, Truth.ofBool_eq_yes_iff]
  self _ hstored := ⟨hstored, hstored, rfl⟩

/-- The second of the sample members. -/
def secondMember : TableRow := row [("member_id", 2), ("age", 30), ("team_id", 2)]

/-- Whoever is 30 years old, whatever the identifier is. -/
def thirty : Probe := ⟨"Member", [("age", .integer 30), ("id", .null)]⟩

end Sample

/-- A probe for the age of thirty, and the row of a member that finds itself. -/
theorem ExampleMatcher.selects_alike_members :
    (∃ holds, ({} : ExampleMatcher).Selects Sample.storedMeaning Sample.database Sample.member
        Sample.thirty holds ∧
      ∀ row, holds row = true ↔ ({} : ExampleMatcher).Alike Stored.Equals Sample.member Sample.thirty row) ∧
    ∃ s r, Record.MappedBy Sample.league { entity := Sample.member, shape := .list } s
        Sample.secondMember r ∧
      ∃ holds, ({ includesNulls := true } : ExampleMatcher).Selects Sample.storedMeaning Sample.database
        Sample.member (.ofRecord r) holds ∧ holds Sample.secondMember = true := by
  have hbuilt : Schema.build [Sample.team, Sample.member] = .ok Sample.league := by decide
  obtain ⟨halike, hself⟩ := selects_alike hbuilt (List.mem_pair.2 (.inr rfl)) Sample.database
    Sample.equality_storedMeaning
  constructor
  · refine halike {} Sample.thirty ⟨rfl, ?_, by decide⟩ ?_
    · intro entry hentry
      rcases List.mem_pair.1 hentry with rfl | rfl
      · exact ⟨_, rfl⟩
      · exact ⟨_, rfl⟩
    · intro entry hentry
      rcases List.mem_pair.1 hentry with rfl | rfl
      · exact fun _ => by decide
      · exact fun _ => by decide
  · have htyped : Sample.member.Types Sample.secondMember := by
      refine ⟨fun f hf => ?_, fun a ha column hcolumn => ?_⟩
      · rcases List.mem_pair.1 hf with rfl | rfl
        · exact ⟨_, .integer 2, rfl⟩
        · exact ⟨_, .integer 30, rfl⟩
      · obtain rfl := List.mem_singleton.1 ha
        cases hcolumn
        exact ⟨_, .integer 2, rfl⟩
    obtain ⟨hmapped, hfinds⟩ := hself Sample.secondMember htyped
    obtain ⟨s, r, htypes, hr⟩ := hmapped (by decide)
    refine ⟨s, r, hr, hfinds _ s r rfl hr htypes { includesNulls := true } fun entry hentry _ => ?_⟩
    -- The fields of members have names.
    obtain ⟨f, hf, _⟩ := (hr.fields htypes).2 entry hentry
    have hnames : ∀ f ∈ Sample.member.fields, f.name ≠ "" := by decide
    obtain ⟨hmem, hname⟩ := Entity.mem_of_fieldNamed? hf
    exact hname ▸ hnames f hmem

namespace Sample

/-- The field of the stars has no name. -/
def note : Entity :=
  (({ name := "Note", table := "note" } : Entity).withId "id" "note_id").withFieldIn
    "" "stars" .integer true

/-- Both the points and whether they are enough are called the grade. -/
def mark : Entity :=
  ((({ name := "Mark", table := "mark" } : Entity).withId "id" "mark_id").withFieldIn
    "grade" "points" .integer false).withFieldIn "grade" "passed" .boolean false

/-- A note with three stars. -/
def noteRow : TableRow := row [("note_id", 1), ("stars", 3)]

/-- A mark of five points, which are enough. -/
def markRow : TableRow := row [("mark_id", 1), ("points", 5), ("passed", 1)]

/-- A schema of both. -/
def notesAndMarks : Schema := ⟨[note, mark]⟩

/-- All notes. -/
def allNotes : Query := { entity := note, shape := .list }

/-- All marks. -/
def allMarks : Query := { entity := mark, shape := .list }

end Sample

/-- **Not every record finds itself.**  A note has a field without a name, and no statement can compare it.
    A mark has two fields of one name, and the record has the truth value for both, which is not equal to
    the points. -/
theorem ExampleMatcher.not_found_by_example :
    Schema.build [Sample.note, Sample.mark] = .ok Sample.notesAndMarks ∧
    (Sample.note.Types Sample.noteRow ∧ ∃ s r p,
      Record.MappedBy Sample.notesAndMarks Sample.allNotes s Sample.noteRow r ∧
      ({} : ExampleMatcher).predicate (.ofRecord r) Sample.note = .ok p ∧
      Select.ofQuery Sample.notesAndMarks { Sample.allNotes with predicate := p } =
        .error (.badPath (.emptySegment ⟨[""]⟩))) ∧
    Sample.mark.Types Sample.markRow ∧ ∃ s r p,
      Record.MappedBy Sample.notesAndMarks Sample.allMarks s Sample.markRow r ∧
      ({} : ExampleMatcher).predicate (.ofRecord r) Sample.mark = .ok p ∧
      ∀ db : Database Sample.notesAndMarks,
        { Sample.allMarks with predicate := p }.holds Sample.storedMeaning db Sample.markRow = false := by
  refine ⟨by decide,
    ⟨⟨fun f hf => ?_, nofun⟩, _, _, _,
      ⟨rfl, rfl, JoinedRow.ofRoot Sample.noteRow, _, rfl, rfl, rfl⟩, rfl, rfl⟩,
    ⟨fun f hf => ?_, nofun⟩, _, _, _,
      ⟨rfl, rfl, JoinedRow.ofRoot Sample.markRow, _, rfl, rfl, rfl⟩, rfl, fun _ => rfl⟩
  -- Each row has values of the types of its fields.
  · rcases List.mem_pair.1 hf with rfl | rfl
    · exact ⟨_, .integer 1, rfl⟩
    · exact ⟨_, .integer 3, rfl⟩
  · rcases List.mem_cons.1 hf with rfl | hf
    · exact ⟨_, .integer 1, rfl⟩
    rcases List.mem_pair.1 hf with rfl | rfl
    · exact ⟨_, .integer 5, rfl⟩
    · exact ⟨_, .boolean true, rfl⟩

end EntityQuery
