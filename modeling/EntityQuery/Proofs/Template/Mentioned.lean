import EntityQuery.Proofs.Schema.Composed
import EntityQuery.Proofs.Template.Comparisons

namespace EntityQuery

/-!
# What templates mention

An alias stands for an entity: that of the template for its rows, that of a join for the entity at the
end of its path.  Every path that an accepted template mentions begins with an alias that is declared,
and what follows can be followed from the entity of this alias (`Template.mentions_of_parse`).  Joins know
the aliases before them, and all other places know all aliases, also those declared behind them.  Only
the argument of a count is left out: its alias is looked up, but not its properties
(`Template.count_of_unknown_property`).
-/

/-! ### Written paths -/

mutual

/-- The paths of a value. -/
def WrittenValue.paths : WrittenValue → List WrittenPath
  | .operand _ => []
  | .path p => [p]
  | .chain first more => first.paths ++ pathsOf more

/-- The paths of terms behind operators. -/
def WrittenValue.pathsOf : List (ArithmeticOperator × WrittenValue) → List WrittenPath
  | [] => []
  | (_, term) :: more => term.paths ++ pathsOf more

end

namespace SelectClause

/-- The paths of what is selected. -/
def paths : SelectClause → List WrittenPath
  | .items selected => selected.map (·.path)
  | .count _ _ => []
  | .construct _ selected => selected.map (·.path)

/-- The argument of a count. -/
def counted? : SelectClause → Option WrittenPath
  | .count _ p => some p
  | .items _ => none
  | .construct _ _ => none

end SelectClause

/-- The paths of a select, apart from those of its joins and the argument of a count. -/
def WrittenSelect.paths (w : WrittenSelect) : List WrittenPath :=
  w.clause.paths ++ ((WrittenCondition.comparisons w.condition).map (·.path) ++ w.order.map (·.path))

/-- The paths of a mutation: what is assigned to, and what is read for it. -/
def WrittenMutation.paths : WrittenMutation → List WrittenPath
  | .update assignments => assignments.flatMap fun a => a.1 :: a.2.paths
  | .delete => []

/-- The paths of an update or delete. -/
def WrittenBulk.paths (w : WrittenBulk) : List WrittenPath :=
  w.mutation.paths ++ (WrittenCondition.comparisons w.condition).map (·.path)

/-! ### Aliases and their entities -/

/-- Aliases with the entities that they stand for, the latest one first. -/
abbrev AliasEntities := List (String × Entity)

/-- The alias of a join stands for the entity at the end of its path. -/
def WrittenJoin.declare (schema : Schema) (aliases : AliasEntities) (j : WrittenJoin) : AliasEntities :=
  match j.knownAs,
    (aliases.lookup j.path.base).bind fun e => schema.reach? e j.path.properties with
  | some name, some e => (name, e) :: aliases
  | _, _ => aliases

/-- The aliases behind some joins. -/
def WrittenJoin.declareAll (schema : Schema) (aliases : AliasEntities) (joins : List WrittenJoin) :
    AliasEntities :=
  joins.foldl (fun aliases j => j.declare schema aliases) aliases

/-- A path begins with an alias that is declared, and what follows is a property of its entity. -/
def AliasEntities.Mention (schema : Schema) (aliases : AliasEntities) (p : WrittenPath) : Prop :=
  ∃ e, aliases.lookup p.base = some e ∧
    (p.properties ≠ [] → ∃ r, schema.resolve e ⟨p.properties⟩ = .ok r)

/-- All that a template mentions is there, except that of the argument of a count only the alias is. -/
def WrittenTemplate.Mentions (schema : Schema) : WrittenTemplate → Prop
  | .select w => ∃ root, schema.entity? w.entity = some root ∧
      (∀ before j after, w.joins = before ++ j :: after →
        (WrittenJoin.declareAll schema [(w.knownAs, root)] before).Mention schema j.path) ∧
      (∀ p ∈ w.paths, (WrittenJoin.declareAll schema [(w.knownAs, root)] w.joins).Mention schema p) ∧
      ∀ p, w.clause.counted? = some p →
        ∃ e, (WrittenJoin.declareAll schema [(w.knownAs, root)] w.joins).lookup p.base = some e
  | .bulk w => ∃ root, schema.entity? w.entity = some root ∧
      ∀ p ∈ w.paths, AliasEntities.Mention schema [(w.knownAs, root)] p

namespace Template

variable {schema : Schema} {scope scope' : Scope} {aliases : AliasEntities} {written : WrittenPath}
variable {path : Path}

/-! ### Scopes -/

/-- The aliases of a scope are those of some entities: the path of each leads to its entity. -/
structure Scope.Names (scope : Scope) (schema : Schema) (aliases : AliasEntities) : Prop
    extends scope.Over schema where
  entities : List.Forall₂ (fun (known : String × Path) (named : String × Entity) =>
    known.1 = named.1 ∧ schema.reach? scope.root known.2.segments = some named.2) scope.aliases aliases

/-- An alias that is found has the entity that its path leads to. -/
theorem Scope.Names.exists_entity (h : scope.Names schema aliases) {name : String} {base : Path}
    (hbase : scope.aliases.lookup name = some base) :
    ∃ e, aliases.lookup name = some e ∧ schema.reach? scope.root base.segments = some e := by
  obtain ⟨_, hentities⟩ := h
  revert hbase
  generalize scope.aliases = declared at hentities
  induction hentities with
  | nil => exact nofun
  | @cons known named _ _ hknown _ ih =>
    obtain ⟨other, base'⟩ := known
    obtain ⟨other', e⟩ := named
    obtain ⟨rfl, hreach⟩ := hknown
    -- Both lists have the same aliases in the same order, so both find the same entry.
    rw [List.lookup_cons, List.lookup_cons]
    cases name == other with
    | true =>
      rintro hbase
      cases hbase
      exact ⟨e, rfl, hreach⟩
    | false => exact ih

/-- A path begins with an alias, and what follows it stands behind the path of this alias. -/
theorem Scope.Names.exists_base (h : scope.Names schema aliases) (hpath : scope.path written = .ok path) :
    ∃ base e, path.segments = base ++ written.properties ∧ aliases.lookup written.base = some e ∧
      schema.reach? scope.root base = some e := by
  unfold Scope.path at hpath
  split at hpath
  · rename_i base hbase
    cases hpath
    obtain ⟨e, he, hreach⟩ := h.exists_entity hbase
    exact ⟨base.segments, e, rfl, he, hreach⟩
  · cases hpath

/-- **What can be followed from the root is there**, seen from the entity of the alias. -/
theorem Scope.Names.mention (h : scope.Names schema aliases) (hpath : scope.path written = .ok path)
    (hresolve : written.properties ≠ [] → ∃ r, scope.schema.resolve scope.root path = .ok r) :
    aliases.Mention schema written := by
  obtain ⟨base, e, hsegments, he, hreach⟩ := h.exists_base hpath
  refine ⟨e, he, fun hne => ?_⟩
  obtain ⟨r, hr⟩ := hresolve hne
  obtain rfl : path = ⟨base ++ written.properties⟩ := by rw [← hsegments]
  rw [h.sameSchema] at hr
  obtain ⟨r', hr', _⟩ := Schema.resolve_behind hr hne hreach
  exact ⟨r', hr'⟩

/-- At first the root has a name. -/
theorem names_ofEntity {entity knownAs : String} (h : Scope.ofEntity schema entity knownAs = .ok scope) :
    schema.entity? entity = some scope.root ∧ scope.Names schema [(knownAs, scope.root)] := by
  have hover := over_ofEntity h
  unfold Scope.ofEntity at h
  split at h
  · rename_i root hroot
    cases h
    exact ⟨hroot, hover, .cons ⟨rfl, rfl⟩ .nil⟩
  · cases h

/-! ### Joins -/

/-- The path of a join is there, and its alias leads to the entity at the end of the path. -/
theorem names_of_join (hschema : schema.Checked) (hscope : scope.Names schema aliases) {j : WrittenJoin}
    {request : JoinRequest} (h : join scope j = .ok (request, scope')) :
    aliases.Mention schema j.path ∧ scope'.Names schema (j.declare schema aliases) ∧
      scope'.root = scope.root := by
  unfold join at h
  obtain ⟨path, hpath, h⟩ := bind_eq_ok_iff.1 h
  obtain ⟨r, hr, h⟩ := bind_eq_ok_iff.1 h
  have hr := Scope.resolve_eq_ok_iff.1 hr
  split at h
  · cases h
  rename_i a hterminal
  split at h
  case isFalse => cases h
  rename_i htoOne
  cases h
  refine ⟨hscope.mention hpath fun _ => ⟨r, hr⟩, ?_⟩
  obtain ⟨base, e, hsegments, he, hreach⟩ := hscope.exists_base hpath
  obtain ⟨rfl, hroot⟩ := hscope.toOver
  -- The association leads to a registered entity, which is the one at the end of the path.
  have hassociation := Resolution.association?_eq_some_iff.2 hterminal
  obtain ⟨_, a', _, target, _, hr', ha', _, htarget, _⟩ :=
    Schema.links_of_toOne hschema hroot hr hassociation htoOne
  obtain rfl := Except.ok.inj (hr.symm.trans hr')
  obtain rfl := Option.some.inj (hassociation.symm.trans ha')
  have hend := (Schema.reach?_of_association hr hterminal).trans htarget
  have hbehind : scope.schema.reach? e j.path.properties = some target := by
    rw [hsegments, Schema.reach?_append, hreach] at hend
    exact hend
  unfold WrittenJoin.declare
  rw [he]
  simp only [Option.bind_some, hbehind]
  cases j.knownAs with
  | none => exact ⟨hscope, rfl⟩
  | some name => exact ⟨⟨⟨rfl, hroot⟩, .cons ⟨rfl, hend⟩ hscope.entities⟩, rfl⟩

/-- **Joins know the aliases before them**, and behind them all aliases lead to their entities. -/
theorem names_of_joinsOf (hschema : schema.Checked) (hscope : scope.Names schema aliases)
    {joins : List WrittenJoin} {requests : List JoinRequest}
    (h : joinsOf scope joins = .ok (requests, scope')) :
    (∀ before j after, joins = before ++ j :: after →
      (WrittenJoin.declareAll schema aliases before).Mention schema j.path) ∧
    scope'.Names schema (WrittenJoin.declareAll schema aliases joins) ∧ scope'.root = scope.root := by
  induction joins generalizing scope aliases requests with
  | nil =>
    cases h
    exact ⟨fun before j after hnil => absurd hnil.symm (List.append_ne_nil_of_right_ne_nil _ (by simp)),
      hscope, rfl⟩
  | cons first more ih =>
    rw [joinsOf] at h
    obtain ⟨⟨request, between⟩, hjoin, h⟩ := bind_eq_ok_iff.1 h
    obtain ⟨⟨rest, last⟩, hrest, h⟩ := bind_eq_ok_iff.1 h
    cases h
    obtain ⟨hfirst, hbetween, hroot⟩ := names_of_join hschema hscope hjoin
    obtain ⟨hmore, hnames, hroot'⟩ := ih hbetween hrest
    refine ⟨fun before j after hsplit => ?_, hnames, hroot'.trans hroot⟩
    -- The join in question is the first one or one of the rest.
    cases before with
    | nil =>
      cases hsplit
      exact hfirst
    | cons _ before =>
      cases hsplit
      exact hmore before j after rfl

/-! ### Places -/

/-- A property that is read is one that the text can mention. -/
theorem mention_of_property (hscope : scope.Names schema aliases)
    (h : scope.property written = .ok path) : aliases.Mention schema written := by
  have hresolve := Scope.exists_resolve_of_property h
  unfold Scope.property at h
  obtain ⟨found, hfound, h⟩ := bind_eq_ok_iff.1 h
  split at h
  · cases h
  · obtain ⟨_, _, h⟩ := bind_eq_ok_iff.1 h
    cases h
    exact hscope.mention hfound fun _ => hresolve

/-- So is a field of the root. -/
theorem mention_of_rootField (hscope : scope.Names schema aliases) {field : Field}
    (h : scope.rootField written = .ok field) : aliases.Mention schema written := by
  unfold Scope.rootField at h
  obtain ⟨path, hpath, h⟩ := bind_eq_ok_iff.1 h
  obtain ⟨r, hr, _⟩ := bind_eq_ok_iff.1 h
  exact hscope.mention hpath fun _ => ⟨r, Scope.resolve_eq_ok_iff.1 hr⟩

/-- So is all that is selected. -/
theorem mention_of_selections (hscope : scope.Names schema aliases) {items : List SelectItem}
    {selections : List Selection} (h : items.mapM (selection scope) = .ok selections) :
    ∀ item ∈ items, aliases.Mention schema item.path := by
  intro item hitem
  obtain ⟨s, _, hs⟩ := exists_right_of_forall₂ (listMapM_eq_ok_iff.1 h) hitem
  unfold selection at hs
  obtain ⟨path, hpath, _⟩ := bind_eq_ok_iff.1 hs
  exact mention_of_property hscope hpath

/-- **What is selected is there**; of what is counted the alias is. -/
theorem mention_of_clause (hscope : scope.Names schema aliases) {c : SelectClause}
    {found : List Selection × Target × Bool} (h : clause scope c = .ok found) :
    (∀ p ∈ c.paths, aliases.Mention schema p) ∧
      ∀ p, c.counted? = some p → ∃ e, aliases.lookup p.base = some e := by
  unfold clause at h
  -- Of what is counted only the alias is looked at.
  split at h
  · obtain ⟨path, hpath, _⟩ := bind_eq_ok_iff.1 h
    refine ⟨nofun, fun p hp => ?_⟩
    cases hp
    obtain ⟨_, e, _, he, _⟩ := hscope.exists_base hpath
    exact ⟨e, he⟩
  · obtain ⟨selections, hselections, _⟩ := bind_eq_ok_iff.1 h
    exact ⟨List.forall_mem_map.2 (mention_of_selections hscope hselections), nofun⟩
  · obtain ⟨path, hpath, h⟩ := bind_eq_ok_iff.1 h
    refine ⟨List.forall_mem_singleton.2 ?_, nofun⟩
    split at h
    · -- The alias of the root alone: nothing stands behind it.
      rename_i hempty
      refine hscope.mention hpath fun hne => absurd ?_ hne
      obtain ⟨base, _, hsegments, _⟩ := hscope.exists_base hpath
      rw [List.isEmpty_iff, hsegments] at hempty
      exact (List.append_eq_nil_iff.1 hempty).2
    · obtain ⟨s, hs, _⟩ := bind_eq_ok_iff.1 h
      unfold selection at hs
      obtain ⟨_, hproperty, _⟩ := bind_eq_ok_iff.1 hs
      exact mention_of_property hscope hproperty
  · obtain ⟨selections, hselections, _⟩ := bind_eq_ok_iff.1 h
    exact ⟨List.forall_mem_map.2 (mention_of_selections hscope hselections), nofun⟩

/-- All that is sorted by is mentioned. -/
theorem mention_of_order (hscope : scope.Names schema aliases) {written : List WrittenOrder}
    {order : SortOrder} (h : written.mapM (orderTerm scope) = .ok order) :
    ∀ p ∈ written.map (·.path), aliases.Mention schema p := by
  refine List.forall_mem_map.2 fun o ho => ?_
  obtain ⟨d, _, hd⟩ := exists_right_of_forall₂ (listMapM_eq_ok_iff.1 h) ho
  unfold orderTerm at hd
  obtain ⟨path, hpath, _⟩ := bind_eq_ok_iff.1 hd
  exact mention_of_property hscope hpath

section Resolving

variable {n n' : Numbering}

/-- And all that is compared. -/
theorem mention_of_condition (hscope : scope.Names schema aliases) {c : Option WrittenCondition}
    {p : Option Predicate} (h : optionalCondition scope c n = .ok (p, n')) :
    ∀ q ∈ (WrittenCondition.comparisons c).map (·.path), aliases.Mention schema q := by
  refine List.forall_mem_map.2 fun c hc => ?_
  have hread := (compares_of_optionalCondition h).forall₂
    (R := fun c _ => aliases.Mention schema c.path) fun hread => by
      obtain ⟨path, _, _, _, hpath, hresolve, _⟩ := comparison_ok hread
      exact hscope.mention hpath fun _ => hresolve
  obtain ⟨_, _, hmention⟩ := exists_right_of_forall₂ hread hc
  exact hmention

mutual

/-- **What a value is computed from is there**, by induction on its brackets. -/
theorem mention_of_value (hscope : scope.Names schema aliases) {n n' : Numbering} {e : ValueExpr} :
    (v : WrittenValue) → value scope v n = .ok (e, n') → ∀ p ∈ v.paths, aliases.Mention schema p
  | .operand _, _ => by
    rw [WrittenValue.paths]
    exact nofun
  | .path written, h => by
    rw [value] at h
    obtain ⟨_, _, hlift, _⟩ := bind_ok_iff.1 h
    rw [WrittenValue.paths]
    exact List.forall_mem_singleton.2 (mention_of_rootField hscope (lift_ok_iff.1 hlift).1)
  | .chain first more, h => by
    rw [value] at h
    obtain ⟨_, _, hfirst, h⟩ := bind_ok_iff.1 h
    obtain ⟨_, _, hmore, _⟩ := bind_ok_iff.1 h
    rw [WrittenValue.paths]
    exact List.forall_mem_append.2 ⟨mention_of_value hscope first hfirst,
      mention_of_valuesOf hscope more hmore⟩

/-- And all that an expression reads, operand by operand. -/
theorem mention_of_valuesOf (hscope : scope.Names schema aliases) {n n' : Numbering}
    {es : List (ArithmeticOperator × ValueExpr)} :
    (more : List (ArithmeticOperator × WrittenValue)) → valuesOf scope more n = .ok (es, n') →
      ∀ p ∈ WrittenValue.pathsOf more, aliases.Mention schema p
  | [], _ => by
    rw [WrittenValue.pathsOf]
    exact nofun
  | (_, term) :: more, h => by
    rw [valuesOf] at h
    obtain ⟨_, _, hterm, h⟩ := bind_ok_iff.1 h
    obtain ⟨_, _, hmore, _⟩ := bind_ok_iff.1 h
    rw [WrittenValue.pathsOf]
    exact List.forall_mem_append.2 ⟨mention_of_value hscope term hterm,
      mention_of_valuesOf hscope more hmore⟩

end

/-- Assignments mention what they assign to and what they read. -/
theorem mention_of_assignments (hscope : scope.Names schema aliases)
    {assignments : List (WrittenPath × WrittenValue)} {made : List Assignment}
    (h : assignments.mapM (assignment scope) n = .ok (made, n')) :
    ∀ p ∈ assignments.flatMap fun a => a.1 :: a.2.paths, aliases.Mention schema p := by
  induction assignments generalizing n n' made with
  | nil => exact nofun
  | cons a more ih =>
    rw [List.mapM_cons] at h
    obtain ⟨_, _, hfirst, h⟩ := bind_ok_iff.1 h
    obtain ⟨_, _, hmore, _⟩ := bind_ok_iff.1 h
    unfold assignment at hfirst
    obtain ⟨_, _, hlift, hfirst⟩ := bind_ok_iff.1 hfirst
    obtain ⟨_, _, hvalue, _⟩ := bind_ok_iff.1 hfirst
    have htarget := mention_of_rootField hscope (lift_ok_iff.1 hlift).1
    rw [List.flatMap_cons, List.cons_append, List.forall_mem_cons, List.forall_mem_append]
    exact ⟨htarget, mention_of_value hscope a.2 hvalue, ih hmore⟩

/-- And so does a mutation. -/
theorem mention_of_mutation (hscope : scope.Names schema aliases) {m : WrittenMutation}
    {found : Mutation} (h : mutation scope m n = .ok (found, n')) :
    ∀ p ∈ m.paths, aliases.Mention schema p := by
  cases m with
  | update assignments =>
    obtain ⟨_, _, hmade, _⟩ := bind_ok_iff.1 h
    exact mention_of_assignments hscope hmade
  | delete => exact nofun

end Resolving

/-! ### Whole templates -/

/-- A select that is accepted mentions what is declared. -/
theorem mentions_of_select (hschema : schema.Checked) {w : WrittenSelect} {t : SelectTemplate}
    (h : ofSelect schema w = .ok t) : (WrittenTemplate.select w).Mentions schema := by
  unfold ofSelect at h
  obtain ⟨scope, hscope, h⟩ := bind_eq_ok_iff.1 h
  obtain ⟨⟨joins, scope'⟩, hjoins, h⟩ := bind_eq_ok_iff.1 h
  obtain ⟨found, hclause, h⟩ := bind_eq_ok_iff.1 h
  obtain ⟨⟨predicate, numbering⟩, hcondition, h⟩ := bind_eq_ok_iff.1 h
  obtain ⟨order, horder, _⟩ := bind_eq_ok_iff.1 h
  obtain ⟨hroot, hnames⟩ := names_ofEntity hscope
  obtain ⟨hbefore, hall, _⟩ := names_of_joinsOf hschema hnames hjoins
  obtain ⟨hselected, hcounted⟩ := mention_of_clause hall hclause
  refine ⟨scope.root, hroot, hbefore, ?_, hcounted⟩
  -- The clauses behind the joins may use all aliases.
  exact List.forall_mem_append.2 ⟨hselected, List.forall_mem_append.2
    ⟨mention_of_condition hall hcondition, mention_of_order hall horder⟩⟩

/-- So does a bulk statement. -/
theorem mentions_of_bulk {w : WrittenBulk} {q : BulkQuery} (h : ofBulk schema w = .ok q) :
    (WrittenTemplate.bulk w).Mentions schema := by
  unfold ofBulk at h
  obtain ⟨scope, hscope, h⟩ := bind_eq_ok_iff.1 h
  obtain ⟨⟨⟨m, predicate⟩, numbering⟩, hrun, _⟩ := bind_eq_ok_iff.1 h
  obtain ⟨_, _, hmutation, hrun⟩ := bind_ok_iff.1 hrun
  obtain ⟨_, _, hcondition, _⟩ := bind_ok_iff.1 hrun
  obtain ⟨hroot, hnames⟩ := names_ofEntity hscope
  exact ⟨scope.root, hroot, List.forall_mem_append.2
    ⟨mention_of_mutation hnames hmutation, mention_of_condition hnames hcondition⟩⟩

/-- **All that an accepted template mentions is there**: every path, wherever it is written, begins with
    an alias that is declared, and what follows can be followed from the entity of this alias.  Of the
    argument of a count only the alias is sure to be there. -/
theorem mentions_of_parse {entities : List Entity} (hbuilt : Schema.build entities = .ok schema)
    {text : String} {t : Template} (h : parse schema text = .ok t) :
    ∃ w, Grammar.parse? text = some w ∧ w.Mentions schema := by
  unfold parse at h
  split at h
  · cases h
  · rename_i w hread
    obtain ⟨found, hfound, _⟩ := bind_eq_ok_iff.1 h
    exact ⟨.select w, hread, mentions_of_select (Schema.checked_of_build hbuilt) hfound⟩
  · rename_i w hread
    obtain ⟨found, hfound, _⟩ := bind_eq_ok_iff.1 h
    exact ⟨.bulk w, hread, mentions_of_bulk hfound⟩

end Template

/-! ### Examples -/

namespace Sample

/-- A template with a join, a condition and an order. -/
def orderedText : String :=
  "select m.age, t.id from Member m join m.team t where t.parent is null order by m.age"

/-- A count of a property that no member has. -/
def nicknamesText : String := "select count(m.nickname) from Member m"

/-- Whether a template is that count. -/
def countsNicknames : WrittenTemplate → Bool
  | .select w => decide (w.clause = .count false ⟨"m", ["nickname"]⟩ ∧ w.entity = "Member" ∧ w.knownAs = "m")
  | .bulk _ => false

/-- A text whose reading was seen to succeed has a template. -/
theorem exists_parse (text : String) (h : (Template.parse league text).toOption.isSome = true) :
    ∃ t, Template.parse league text = .ok t := by
  obtain ⟨t, ht⟩ := Option.isSome_iff_exists.1 h
  exact ⟨t, toOption_eq_some_iff.1 ht⟩

end Sample

/-- The ordered template mentions what the league declares. -/
theorem Template.mentions_of_parse_ordered :
    ∃ t w, Template.parse Sample.league Sample.orderedText = .ok t ∧
      Grammar.parse? Sample.orderedText = some w ∧ w.Mentions Sample.league := by
  have hbuilt : Schema.build [Sample.team, Sample.member] = .ok Sample.league := by decide +kernel
  obtain ⟨t, ht⟩ := Sample.exists_parse Sample.orderedText (by decide +kernel)
  obtain ⟨w, hw, hmentions⟩ := mentions_of_parse hbuilt ht
  exact ⟨t, w, ht, hw, hmentions⟩

/-- **A count takes properties that do not exist**: members have no nickname, and yet it is counted. -/
theorem Template.count_of_unknown_property :
    ∃ t w p, Template.parse Sample.league Sample.nicknamesText = .ok t ∧
      Grammar.parse? Sample.nicknamesText = some (.select w) ∧ w.clause.counted? = some p ∧
      w.knownAs = p.base ∧ Sample.league.entity? w.entity = some Sample.member ∧
      Sample.league.resolve Sample.member ⟨p.properties⟩ =
        .error (.noProperty "nickname" "Member" ⟨["nickname"]⟩) := by
  obtain ⟨t, ht⟩ := Sample.exists_parse Sample.nicknamesText (by decide +kernel)
  have hread : (Grammar.parse? Sample.nicknamesText).any Sample.countsNicknames = true := by
    decide +kernel
  obtain ⟨w, hw, hcounts⟩ := Option.any_eq_true _ _ |>.1 hread
  -- The text is a select, whose clause and entity were computed.
  cases w with
  | select w =>
    obtain ⟨hclause, hentity, hknownAs⟩ := of_decide_eq_true hcounts
    refine ⟨t, w, ⟨"m", ["nickname"]⟩, ht, hw, ?_, hknownAs, ?_, by decide +kernel⟩
    · rw [hclause, SelectClause.counted?]
    · rw [hentity]
      decide +kernel
  | bulk w => cases hcounts

end EntityQuery
