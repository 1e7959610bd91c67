import EntityQuery.Proofs.Plan.Acceptance
import EntityQuery.Proofs.Template.RoundTrip
import EntityQuery.Repository.Definition

namespace EntityQuery

/-!
# Accepted templates

The query of a template that is read is sound: every name was looked up in the schema of its scope,
which stays the same while aliases are added (`Template.Scope.Over`).  Joins are joinable, conditions
are sound by induction on what is written, and an update assigns something, since the grammar does
not read one that assigns nothing.
-/

namespace Template

variable {schema : Schema} {scope scope' : Scope} {path : Path} {r : Resolution}

/-! ### Scopes -/

/-- A scope over an entity of a schema. -/
structure Scope.Over (scope : Scope) (schema : Schema) : Prop where
  sameSchema : scope.schema = schema
  registered : scope.root ∈ schema.entities

/-- The scope of an entity is one over the schema. -/
theorem over_ofEntity {entity knownAs : String} (h : Scope.ofEntity schema entity knownAs = .ok scope) :
    scope.Over schema := by
  unfold Scope.ofEntity at h
  split at h
  · rename_i root hroot
    cases h
    exact ⟨rfl, Schema.mem_entities_of_entity? hroot⟩
  · cases h

/-- Declaring an alias changes the aliases only. -/
theorem Scope.withAlias_eq (scope : Scope) (knownAs : Option String) (path : Path) :
    ∃ aliases, scope.withAlias knownAs path = { scope with aliases } := by
  cases knownAs with
  | none => exact ⟨scope.aliases, rfl⟩
  | some name => exact ⟨(name, path) :: scope.aliases, rfl⟩

/-- Paths are followed in the schema of the scope, from its root. -/
theorem Scope.resolve_eq_ok_iff :
    scope.resolve path = .ok r ↔ scope.schema.resolve scope.root path = .ok r :=
  mapError_eq_ok_iff

/-- A property can be followed. -/
theorem Scope.exists_resolve_of_property {written : WrittenPath}
    (h : scope.property written = .ok path) :
    ∃ r, scope.schema.resolve scope.root path = .ok r := by
  unfold Scope.property at h
  obtain ⟨found, _, h⟩ := bind_eq_ok_iff.1 h
  split at h
  · cases h
  · obtain ⟨r, hr, h⟩ := bind_eq_ok_iff.1 h
    cases h
    exact ⟨r, Scope.resolve_eq_ok_iff.1 hr⟩

/-! ### Joins, items and orders -/

/-- A join is joinable, and only adds an alias. -/
theorem joinable_of_join (hschema : schema.Checked) (hscope : scope.Over schema) {j : WrittenJoin}
    {request : JoinRequest} (h : join scope j = .ok (request, scope')) :
    (request.path.segments ≠ [] ∧ schema.Joinable scope.root request.path) ∧
      ∃ aliases, scope' = { scope with aliases } := by
  obtain ⟨rfl, hroot⟩ := hscope
  unfold join at h
  obtain ⟨path, _, h⟩ := bind_eq_ok_iff.1 h
  obtain ⟨r, hr, h⟩ := bind_eq_ok_iff.1 h
  have hr := Scope.resolve_eq_ok_iff.1 hr
  -- Joining asks for an association that leads to one entity.
  split at h
  · cases h
  rename_i a hterminal
  split at h
  · rename_i htoOne
    cases h
    have ha := Resolution.association?_eq_some_iff.2 hterminal
    exact ⟨⟨(resolved_of_resolve hr).nonempty, Schema.joinable_of_toOne hschema hroot hr ha htoOne⟩,
      scope.withAlias_eq j.knownAs path⟩
  · cases h

/-- **All joins are joinable**, and all they leave behind is aliases. -/
theorem joinable_of_joinsOf (hschema : schema.Checked) (hscope : scope.Over schema)
    {joins : List WrittenJoin} {requests : List JoinRequest}
    (h : joinsOf scope joins = .ok (requests, scope')) :
    (∀ request ∈ requests, request.path.segments ≠ [] ∧
      schema.Joinable scope.root request.path) ∧ ∃ aliases, scope' = { scope with aliases } := by
  induction joins generalizing scope requests with
  | nil =>
    cases h
    exact ⟨nofun, scope'.aliases, rfl⟩
  | cons j more ih =>
    rw [joinsOf] at h
    obtain ⟨⟨request, between⟩, hjoin, h⟩ := bind_eq_ok_iff.1 h
    obtain ⟨⟨rest, last⟩, hrest, h⟩ := bind_eq_ok_iff.1 h
    cases h
    obtain ⟨hrequest, aliases, rfl⟩ := joinable_of_join hschema hscope hjoin
    -- The scope of the next join has one alias more, and the same schema and root.
    have hbetween : Scope.Over { scope with aliases } schema := ⟨hscope.sameSchema, hscope.registered⟩
    obtain ⟨hmore, aliases', rfl⟩ := ih hbetween hrest
    exact ⟨List.forall_mem_cons.2 ⟨hrequest, hmore⟩, aliases', rfl⟩

/-- A selected path leads somewhere. -/
theorem exists_resolve_of_selection {item : SelectItem} {s : Selection}
    (h : selection scope item = .ok s) :
    ∃ r, scope.schema.resolve scope.root s.path = .ok r := by
  unfold selection at h
  obtain ⟨path, hpath, h⟩ := bind_eq_ok_iff.1 h
  cases h
  exact Scope.exists_resolve_of_property hpath

/-- So does every one of a list. -/
theorem exists_resolve_of_selections {items : List SelectItem} {selections : List Selection}
    (h : items.mapM (selection scope) = .ok selections) :
    ∀ s ∈ selections, ∃ r, scope.schema.resolve scope.root s.path = .ok r := by
  intro s hs
  obtain ⟨item, _, hitem⟩ := exists_left_of_forall₂ (listMapM_eq_ok_iff.1 h) hs
  exact exists_resolve_of_selection hitem

/-- **What is selected** can be followed, and the target is one of records, of a constructor, or the
    one that the columns make up. -/
theorem selected_of_clause {c : SelectClause} {selections : List Selection} {target : Target}
    {countOnly : Bool} (h : clause scope c = .ok (selections, target, countOnly)) :
    (∀ s ∈ selections, ∃ r, scope.schema.resolve scope.root s.path = .ok r) ∧
      (target = .entity ∨ (∃ shape, target = .constructor shape) ∨
        target = listTarget selections) := by
  unfold clause at h
  -- A count and the alias of the root give records, and the written list gives the target.
  split at h
  · obtain ⟨_, _, h⟩ := bind_eq_ok_iff.1 h
    cases h
    exact ⟨nofun, .inl rfl⟩
  · obtain ⟨found, hfound, h⟩ := bind_eq_ok_iff.1 h
    cases h
    exact ⟨exists_resolve_of_selections hfound, .inr (.inl ⟨_, rfl⟩)⟩
  · obtain ⟨path, _, h⟩ := bind_eq_ok_iff.1 h
    split at h
    · cases h
      exact ⟨nofun, .inl rfl⟩
    · obtain ⟨s, hs, h⟩ := bind_eq_ok_iff.1 h
      cases h
      exact ⟨List.forall_mem_singleton.2 (exists_resolve_of_selection hs), .inr (.inr rfl)⟩
  · obtain ⟨found, hfound, h⟩ := bind_eq_ok_iff.1 h
    cases h
    exact ⟨exists_resolve_of_selections hfound, .inr (.inr rfl)⟩

/-- The target that written columns make up selects just them. -/
theorem ofQuery_listTarget {q : Query} (h : q.target = listTarget q.selections) :
    SelectList.ofQuery schema q = SelectList.ofSelections schema q.entity q.selections := by
  unfold SelectList.ofQuery
  rw [h]
  cases q.selections with
  | nil => rfl
  | cons s more => cases more <;> rfl

/-- And every path that is sorted by. -/
theorem exists_resolve_of_orderTerms {written : List WrittenOrder} {order : SortOrder}
    (h : written.mapM (orderTerm scope) = .ok order) :
    ∀ d ∈ order, ∃ r, scope.schema.resolve scope.root d.path = .ok r := by
  intro d hd
  obtain ⟨o, _, ho⟩ := exists_left_of_forall₂ (listMapM_eq_ok_iff.1 h) hd
  unfold orderTerm at ho
  obtain ⟨path, hpath, ho⟩ := bind_eq_ok_iff.1 ho
  cases ho
  exact Scope.exists_resolve_of_property hpath

/-! ### Conditions -/

section Conditions

variable {α β : Type} {n n' : Numbering}

/-- A sequence succeeds exactly if both parts do, one behind the other. -/
theorem bind_ok_iff {x : Resolving α} {f : α → Resolving β} {b : β} :
    (x >>= f) n = .ok (b, n') ↔ ∃ a mid, x n = .ok (a, mid) ∧ f a mid = .ok (b, n') := by
  have hbind : (x >>= f) n = (x n >>= fun p => f p.1 p.2) := rfl
  rw [hbind, bind_eq_ok_iff]
  exact ⟨fun ⟨⟨a, mid⟩, h⟩ => ⟨a, mid, h⟩, fun ⟨a, mid, h⟩ => ⟨(a, mid), h⟩⟩

/-- What does not number parameters leaves the numbering. -/
theorem lift_ok_iff {x : Except TemplateDefect α} {a : α} :
    (liftM x : Resolving α) n = .ok (a, n') ↔ x = .ok a ∧ n = n' := by
  cases x with
  | error e => exact ⟨nofun, nofun⟩
  | ok b =>
    show Except.ok (b, n) = Except.ok (a, n') ↔ _
    simp

/-- Neither does a result alone. -/
theorem pure_ok_iff {a b : α} :
    (pure a : Resolving α) n = .ok (b, n') ↔ a = b ∧ n = n' := by
  show Except.ok (a, n) = Except.ok (b, n') ↔ _
  simp

/-- All tests of some predicates are sound. -/
def SoundAll (scope : Scope) (ps : List Predicate) : Prop :=
  ∀ p ∈ ps, ∀ t ∈ p.tests, t.Sound scope.schema scope.root

/-- Every operator but the null tests is written with an operand. -/
theorem operand_of_test {t : WrittenTest} {operator : Operator} {o : Operand}
    (h : test t n = .ok ((operator, o), n')) (harity : operator.arity = 1) : o ≠ .none := by
  unfold test at h
  split at h
  · cases h
    cases harity
  · cases h
    cases harity
  · obtain ⟨items, _, _, h⟩ := bind_ok_iff.1 h
    cases h
    exact nofun
  · obtain ⟨found, _, hoperand, h⟩ := bind_ok_iff.1 h
    cases h
    unfold operand at hoperand
    split at hoperand
    -- A named parameter, a numbered one and a literal are all operands.
    all_goals
      obtain ⟨_, _, _, hoperand⟩ := bind_ok_iff.1 hoperand
      cases hoperand
      exact nofun

/-- A comparison that is read is sound. -/
theorem sound_of_comparison {written : WrittenPath} {t : WrittenTest} {p : Predicate}
    (h : comparison scope written t n = .ok (p, n')) : SoundAll scope [p] := by
  unfold comparison at h
  obtain ⟨path, _, _, h⟩ := bind_ok_iff.1 h
  obtain ⟨r, _, hlift, h⟩ := bind_ok_iff.1 h
  have hr := Scope.resolve_eq_ok_iff.1 (lift_ok_iff.1 hlift).1
  obtain ⟨⟨operator, o⟩, _, htest, h⟩ := bind_ok_iff.1 h
  refine List.forall_mem_singleton.2 ?_
  -- An association may only be tested for null, which its kind and the arity of the test say.
  cases hassociation : r.association? with
  | none =>
    simp only [hassociation] at h
    cases h
    refine List.forall_mem_singleton.2 ⟨⟨r, hr, fun a ha => ?_⟩, operand_of_test htest⟩
    cases hassociation.symm.trans ha
  | some a =>
    simp only [hassociation] at h
    split at h
    · rename_i htests
      cases h
      refine List.forall_mem_singleton.2 ⟨⟨r, hr, fun a' ha' => ?_⟩, operand_of_test htest⟩
      cases hassociation.symm.trans ha'
      exact (Bool.and_eq_true_iff.1 htests).1
    · cases h

/-- Sound predicates are sound together. -/
theorem SoundAll.append {ps qs : List Predicate} (hps : SoundAll scope ps) (hqs : SoundAll scope qs) :
    SoundAll scope (ps ++ qs) := List.forall_mem_append.2 ⟨hps, hqs⟩

/-- A conjunction of sound ones is sound. -/
theorem SoundAll.all {ps : List Predicate} (h : SoundAll scope ps) :
    SoundAll scope (Predicate.all ps).toList := by
  intro p hp t ht
  obtain ⟨q, hq, ht⟩ := Predicate.exists_of_mem_tests_all (Option.mem_toList.1 hp) ht
  exact h q hq t ht

/-- And so is a disjunction. -/
theorem SoundAll.any {ps : List Predicate} (h : SoundAll scope ps) :
    SoundAll scope (Predicate.any ps).toList := by
  intro p hp t ht
  obtain ⟨q, hq, ht⟩ := Predicate.exists_of_mem_tests_any (Option.mem_toList.1 hp) ht
  exact h q hq t ht

mutual

/-- **What is written as a condition is sound**, by induction on its brackets. -/
theorem sound_of_atom {n n' : Numbering} {p : Option Predicate} :
    (a : WrittenAtom) → atom scope a n = .ok (p, n') → SoundAll scope p.toList
  | .comparison written t, h => by
    rw [atom] at h
    obtain ⟨q, _, hq, h⟩ := bind_ok_iff.1 h
    cases h
    exact sound_of_comparison hq
  | .group alternatives, h => by
    rw [atom] at h
    obtain ⟨ps, _, hps, h⟩ := bind_ok_iff.1 h
    cases h
    exact (sound_of_conjunctions alternatives hps).any

/-- The alternatives of a condition are sound. -/
theorem sound_of_conjunctions {n n' : Numbering} {ps : List Predicate} :
    (alternatives : List (List WrittenAtom)) → conjunctions scope alternatives n = .ok (ps, n') →
      SoundAll scope ps
  | [], h => by
    rw [conjunctions] at h
    cases h
    exact nofun
  | atoms :: more, h => by
    rw [conjunctions] at h
    obtain ⟨first, _, hfirst, h⟩ := bind_ok_iff.1 h
    obtain ⟨rest, _, hrest, h⟩ := bind_ok_iff.1 h
    cases h
    exact (sound_of_atomsOf atoms hfirst).all.append (sound_of_conjunctions more hrest)

/-- And so are the atoms of each of them. -/
theorem sound_of_atomsOf {n n' : Numbering} {ps : List Predicate} :
    (atoms : List WrittenAtom) → atomsOf scope atoms n = .ok (ps, n') → SoundAll scope ps
  | [], h => by
    rw [atomsOf] at h
    cases h
    exact nofun
  | a :: more, h => by
    rw [atomsOf] at h
    obtain ⟨first, _, hfirst, h⟩ := bind_ok_iff.1 h
    obtain ⟨rest, _, hrest, h⟩ := bind_ok_iff.1 h
    cases h
    exact (sound_of_atom a hfirst).append (sound_of_atomsOf more hrest)

end

/-- A condition that is read is sound, if there is one. -/
theorem sound_of_optionalCondition {c : Option WrittenCondition} {p : Option Predicate}
    (h : optionalCondition scope c n = .ok (p, n')) : SoundAll scope p.toList := by
  cases c with
  | none =>
    cases h
    exact nofun
  | some alternatives =>
    obtain ⟨ps, _, hps, h⟩ := bind_ok_iff.1 h
    cases h
    exact (sound_of_conjunctions alternatives hps).any

end Conditions

/-! ### Updates -/

/-- An update that is read assigns something. -/
def Assigns : WrittenTemplate → Prop
  | .bulk ⟨_, _, .update assignments, _⟩ => assignments ≠ []
  | _ => True

open Text Text.Reader in
/-- Every update that is read assigns something. -/
theorem assigns_of_statement (depth : Nat) : Yields (Grammar.statement depth) Assigns := by
  have hselect : Yields (WrittenTemplate.select <$> Grammar.selectStatement depth) Assigns :=
    .map fun _ _ _ _ => trivial
  have hupdate : Yields (WrittenTemplate.bulk <$> Grammar.updateStatement depth) Assigns := by
    -- The assignments are read after the keyword, the entity, its alias and `set`.
    refine .map ?_
    exact (yields_true _).bind fun _ _ => (yields_true _).bind fun _ _ =>
      (yields_true _).bind fun _ _ => (yields_true _).bind fun _ _ =>
      (yields_separated _ _).bind fun _ hne => (yields_true _).bind fun _ _ => yields_pure hne
  have hdelete : Yields (WrittenTemplate.bulk <$> Grammar.deleteStatement depth) Assigns := by
    refine .map ?_
    exact (yields_true _).bind fun _ _ => (yields_true _).bind fun _ _ =>
      (yields_true _).bind fun _ _ => (yields_true _).bind fun _ _ =>
      (yields_true _).bind fun _ _ => yields_pure trivial
  exact (hselect.orElse (hupdate.orElse hdelete)).bind fun _ h =>
    (yields_true _).bind fun _ _ => yields_pure h

/-- And so does that of a whole text. -/
theorem assigns_of_parse? {text : String} {w : WrittenTemplate} (h : Grammar.parse? text = some w) :
    Assigns w := by
  unfold Grammar.parse? Text.Reader.whole at h
  dsimp only at h
  split at h
  · rename_i hread
    cases h
    exact assigns_of_statement _ _ _ _ hread
  · cases h

/-- What assigns something when it is written assigns something in the end. -/
theorem mutation_ne_nil {m : WrittenMutation} {n n' : Numbering} {found : Mutation}
    (hm : ∀ assignments, m = .update assignments → assignments ≠ [])
    (h : mutation scope m n = .ok (found, n')) : found ≠ .update [] := by
  unfold mutation at h
  split at h
  · rename_i assignments
    -- The grammar asks for one assignment at least.
    obtain ⟨a, more, rfl⟩ := List.exists_cons_of_ne_nil (hm assignments rfl)
    obtain ⟨made, _, hmade, h⟩ := bind_ok_iff.1 h
    cases h
    rw [List.mapM_cons] at hmade
    obtain ⟨_, _, _, hmade⟩ := bind_ok_iff.1 hmade
    obtain ⟨_, _, _, hmade⟩ := bind_ok_iff.1 hmade
    cases hmade
    exact nofun
  · cases h
    exact nofun

/-! ### Whole templates -/

/-- The query of a template whose target is left as it is written. -/
def SelectTemplate.query (t : SelectTemplate) (shape : Shape) : Query where
  entity := t.entity
  shape := shape
  predicate := t.predicate
  joins := t.joins
  selections := t.selections
  target := t.target
  order := t.order
  distinct := t.distinct
  slots := t.slots

/-- A template that keeps its own target is compiled as it stands. -/
theorem templateQuery_entity (t : SelectTemplate) (shape : Shape) :
    MethodDeclaration.templateQuery t shape .entity = .ok (SelectTemplate.query t shape) := by
  obtain ⟨entity, distinct, joins, selections, target, countOnly, predicate, order, slots⟩ := t
  cases target <;> rfl

/-- An accepted select is what was written, read against the schema. -/
theorem exists_ofSelect_of_parse {text : String} {t : SelectTemplate}
    (h : parse schema text = .ok (.select t)) : ∃ w, ofSelect schema w = .ok t := by
  unfold parse at h
  split at h
  · cases h
  · rename_i w _
    obtain ⟨found, hfound, h⟩ := bind_eq_ok_iff.1 h
    cases h
    exact ⟨w, hfound⟩
  · obtain ⟨found, _, h⟩ := bind_eq_ok_iff.1 h
    cases h

/-- **An accepted select describes a sound query** in any shape. -/
theorem sound_of_parse_select (hschema : schema.Checked) {text : String} {t : SelectTemplate}
    (h : parse schema text = .ok (.select t)) (shape : Shape) :
    (SelectTemplate.query t shape).Sound schema := by
  obtain ⟨w, h⟩ := exists_ofSelect_of_parse h
  unfold ofSelect at h
  obtain ⟨scope, hscope, h⟩ := bind_eq_ok_iff.1 h
  obtain ⟨⟨joins, scope'⟩, hjoins, h⟩ := bind_eq_ok_iff.1 h
  obtain ⟨⟨selections, target, countOnly⟩, hclause, h⟩ := bind_eq_ok_iff.1 h
  obtain ⟨⟨predicate, numbering⟩, hcondition, h⟩ := bind_eq_ok_iff.1 h
  obtain ⟨order, horder, h⟩ := bind_eq_ok_iff.1 h
  cases h
  -- The scope of the clauses is that of the entity with the aliases of the joins.
  have hover := over_ofEntity hscope
  obtain ⟨hjoinable, aliases, rfl⟩ := joinable_of_joinsOf hschema hover hjoins
  obtain ⟨rfl, hroot⟩ := hover
  obtain ⟨hselections, htarget⟩ := selected_of_clause hclause
  have horders := exists_resolve_of_orderTerms horder
  exact {
    registered := hroot
    joins := hjoinable
    tests := fun p hp => sound_of_optionalCondition hcondition p (Option.mem_toList.2 hp)
    order := horders
    selections := hselections
    target := htarget.imp_right fun h => h.imp_right ofQuery_listTarget }

/-- The target of an accepted select is known. -/
theorem isDynamic_of_parse_select {text : String} {t : SelectTemplate}
    (h : parse schema text = .ok (.select t)) : t.target.isDynamic = false := by
  obtain ⟨w, h⟩ := exists_ofSelect_of_parse h
  unfold ofSelect at h
  obtain ⟨scope, _, h⟩ := bind_eq_ok_iff.1 h
  obtain ⟨⟨joins, scope'⟩, _, h⟩ := bind_eq_ok_iff.1 h
  obtain ⟨⟨selections, target, countOnly⟩, hclause, h⟩ := bind_eq_ok_iff.1 h
  obtain ⟨⟨predicate, numbering⟩, _, h⟩ := bind_eq_ok_iff.1 h
  obtain ⟨order, _, h⟩ := bind_eq_ok_iff.1 h
  cases h
  -- No target of a select clause is left to the call.
  rcases (selected_of_clause hclause).2 with rfl | ⟨shape, rfl⟩ | rfl
  · rfl
  · rfl
  · unfold listTarget
    split <;> rfl

/-- **An accepted update or delete is sound.** -/
theorem sound_of_parse_bulk {text : String} {q : BulkQuery}
    (h : parse schema text = .ok (.bulk q)) : q.Sound schema := by
  unfold parse at h
  split at h
  · cases h
  · obtain ⟨found, _, h⟩ := bind_eq_ok_iff.1 h
    cases h
  · rename_i w hread
    obtain ⟨found, hfound, h⟩ := bind_eq_ok_iff.1 h
    cases h
    unfold ofBulk at hfound
    obtain ⟨scope, hscope, h⟩ := bind_eq_ok_iff.1 hfound
    obtain ⟨⟨⟨m, predicate⟩, numbering⟩, hrun, h⟩ := bind_eq_ok_iff.1 h
    obtain ⟨_, hpaths, h⟩ := bind_eq_ok_iff.1 h
    cases h
    obtain ⟨rfl, _⟩ := over_ofEntity hscope
    obtain ⟨_, _, hmutation, hrun⟩ := bind_ok_iff.1 hrun
    obtain ⟨_, _, hcondition, hrun⟩ := bind_ok_iff.1 hrun
    cases hrun
    refine ⟨mutation_ne_nil (fun assignments hw => ?_) hmutation, fun p hp t ht => ⟨?_, fun r hr => ?_⟩⟩
    · have hassigns := assigns_of_parse? hread
      obtain ⟨entity, knownAs, m, c⟩ := w
      cases hw
      exact hassigns
    · exact sound_of_optionalCondition hcondition p (Option.mem_toList.2 hp) t ht
    · -- Every compared path was checked to stay within the entity.
      have hpath : t.path ∈ (predicate.map Predicate.paths).getD [] := by
        rw [show predicate = some p from hp]
        exact Predicate.path_mem_of_tests ht
      have hchecked := forM_eq_ok_iff.1 hpaths t.path hpath
      unfold checkOwnPath at hchecked
      obtain ⟨r', hr', hchecked⟩ := bind_eq_ok_iff.1 hchecked
      cases hr.symm.trans (Scope.resolve_eq_ok_iff.1 hr')
      split at hchecked
      · cases hchecked
      · rename_i hcrosses
        exact Bool.eq_false_iff.2 hcrosses

end Template

end EntityQuery
