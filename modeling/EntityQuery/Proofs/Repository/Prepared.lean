import EntityQuery.Proofs.Template.Accepted
import EntityQuery.Repository.Basic

namespace EntityQuery

/-!
# Prepared methods

What is known of a method once it was prepared (`Prepared.Ready`), whether it was declared by its name,
by a template, or by text for the store (`MethodDeclaration.ready_of_prepare`).  How a name and a template
are prepared is read backwards once (`MethodDeclaration.prepareDerived_cases`,
`MethodDeclaration.prepareTemplate_cases`).  Both are read against the schema, and leave a change or a
select of a registered entity (`Prepared.Written`).  A repository that was built holds all its methods as
they were prepared (`Repository.exists_lookup_of_build`), and no others
(`Repository.exists_method_of_lookup`).
-/

/-- What is sent for a method is settled before any call: there is a compiled select, text that can be
    counted if pages are asked for, or a change. -/
inductive Prepared.Ready (schema : Schema) (shape : Shape) : Prepared → Prop where
  | select {q : Query} {compiled : Compiled} {count : Option Statement}
    (registered : q.entity ∈ schema.entities) (known : q.target.isDynamic = false)
    (selects : shape ≠ .bulk) (answers : q.shape = shape) (compiles : q.compile schema = .ok compiled) :
    Ready schema shape (.select q (some (MethodDeclaration.withCount compiled count)) count)
  | native {compiled : Compiled} (known : compiled.plan.target.isDynamic = false)
    (selects : shape ≠ .bulk) (counts : shape = .page → compiled.count.isSome = true) :
    Ready schema shape (.native compiled)
  | bulk {statement : Statement} {entity : String} {clears : Bool} (changes : shape = .bulk) :
    Ready schema shape (.bulk statement entity clears)

/-- What a name or a template is prepared as: a change, or a select whose target is known if the declared
    one is. -/
inductive Prepared.Written (schema : Schema) (declared : Target) (shape : Shape) (prepared : Prepared) :
    Prop where
  | change {statement : Statement} {entity : String} {clears : Bool} (changes : shape = .bulk)
    (prepares : prepared = .bulk statement entity clears)
  | select {q : Query} {count : Option Statement} (registered : q.entity ∈ schema.entities)
    (known : declared.isDynamic = false → q.target.isDynamic = false) (selects : shape ≠ .bulk)
    (answers : q.shape = shape)
    (prepares : MethodDeclaration.prepareSelect schema q count = .ok prepared)

namespace MethodDeclaration

variable {schema : Schema} {root : Entity} {m : MethodDeclaration} {shape : Shape}
variable {prepared : Prepared} {q : Query} {count : Option Statement} {d : Definition} {text : String}

/-! ### Sources -/

/-- A method is prepared from its source. -/
theorem prepare_cases (h : m.prepare schema root = .ok d) :
    (m.source = .derived ∧ prepareDerived schema root m = .ok (d.shape, d.prepared)) ∨
    (∃ text, m.source = .template text ∧
      prepareTemplate schema m text = .ok (d.shape, d.prepared)) ∨
    ∃ sql, m.source = .native sql ∧ prepareNative schema root m sql = .ok (d.shape, d.prepared) := by
  unfold prepare at h
  dsimp only at h
  split at h
  all_goals
    rename_i hsource
    obtain ⟨⟨shape, prepared⟩, hprepared, h⟩ := bind_eq_ok_iff.1 h
    cases h
  · exact .inl ⟨hsource, hprepared⟩
  · exact .inr (.inl ⟨_, hsource, hprepared⟩)
  · exact .inr (.inr ⟨_, hsource, hprepared⟩)

/-- The query of a method that is described by its name. -/
def derivedQuery (root : Entity) (m : MethodDeclaration) (shape : Shape) (parsed : MethodQuery) :
    Query where
  entity := root
  shape := shape
  predicate := parsed.predicate
  joins := m.fetchJoins
  target := m.target
  order := parsed.order
  limit := parsed.limit
  distinct := parsed.distinct
  slots := parsed.slots

/-- A name is read, and then prepared as a delete, which has no limit, or as a select.  Pages have no
    limit, either. -/
theorem exists_parsed_of_prepareDerived (h : prepareDerived schema root m = .ok (shape, prepared)) :
    ∃ parsed, MethodQuery.parse schema root m.name = .ok parsed ∧
      derivedShape parsed.subject m.shape = .ok shape ∧
      (parsed.limit.isSome = true → shape.isPaged = false) ∧
      ((shape = .bulk ∧ parsed.limit = none ∧
          ∃ statement, prepared = .bulk statement root.name m.clears) ∨
        (shape ≠ .bulk ∧
          prepareSelect schema (derivedQuery root m shape parsed) none = .ok prepared)) := by
  unfold prepareDerived at h
  obtain ⟨parsed, hparsed, h⟩ := bind_eq_ok_iff.1 h
  obtain ⟨found, hfound, h⟩ := bind_eq_ok_iff.1 h
  dsimp only at h
  -- A limit and pages are refused together.
  split at h
  · cases h
  rename_i hpaged
  rw [Bool.and_eq_true, not_and, Bool.not_eq_true] at hpaged
  split at h
  · rename_i hbulk
    split at h
    · cases h
    rename_i hplain
    obtain ⟨statement, _, h⟩ := bind_eq_ok_iff.1 h
    cases h
    rw [Bool.or_eq_true, not_or, Bool.not_eq_true, Option.isSome_eq_false_iff,
      Option.isNone_iff_eq_none] at hplain
    exact ⟨parsed, mapError_eq_ok_iff.1 hparsed, hfound, hpaged, .inl ⟨hbulk, hplain.1, statement, rfl⟩⟩
  · rename_i hselects
    obtain ⟨prepared, hprepared, h⟩ := bind_eq_ok_iff.1 h
    cases h
    exact ⟨parsed, mapError_eq_ok_iff.1 hparsed, hfound, hpaged, .inr ⟨hselects, hprepared⟩⟩

/-- A name is prepared as a delete of rows of the repository's entity, or as a select of them. -/
theorem prepareDerived_cases (h : prepareDerived schema root m = .ok (shape, prepared)) :
    (shape = .bulk ∧ ∃ statement, prepared = .bulk statement root.name m.clears) ∨
    (shape ≠ .bulk ∧ ∃ q : Query, q.entity = root ∧ q.shape = shape ∧ q.selections = [] ∧
      q.target = m.target ∧ prepareSelect schema q none = .ok prepared) := by
  obtain ⟨parsed, _, _, _, ⟨hbulk, _, hchange⟩ | ⟨hselects, hprepared⟩⟩ :=
    exists_parsed_of_prepareDerived h
  · exact .inl ⟨hbulk, hchange⟩
  · exact .inr ⟨hselects, _, rfl, rfl, rfl, rfl, hprepared⟩

/-- A template is prepared as the change or the select that was read from it. -/
theorem prepareTemplate_cases (h : prepareTemplate schema m text = .ok (shape, prepared)) :
    (∃ b statement, Template.parse schema text = .ok (.bulk b) ∧ shape = .bulk ∧
      prepared = .bulk statement b.entity.name m.clears) ∨
    ∃ t count, ∃ q : Query, Template.parse schema text = .ok (.select t) ∧
      templateShape t.countOnly m.shape = .ok shape ∧
      m.countQuery.mapM (countStatement schema) = .ok count ∧
      q.entity = t.entity ∧ q.shape = shape ∧ q.predicate = t.predicate ∧
      templateTarget t m.target = .ok (q.selections, q.target) ∧
      prepareSelect schema q count = .ok prepared := by
  unfold prepareTemplate at h
  obtain ⟨template, hparse, h⟩ := bind_eq_ok_iff.1 h
  replace hparse := mapError_eq_ok_iff.1 hparse
  -- A bulk template is a change, and any other one selects.
  cases template with
  | bulk b =>
    dsimp only at h
    split at h
    · cases h
    obtain ⟨statement, _, h⟩ := bind_eq_ok_iff.1 h
    cases h
    exact .inl ⟨b, statement, hparse, rfl, rfl⟩
  | select t =>
    obtain ⟨found, hshape, h⟩ := bind_eq_ok_iff.1 h
    obtain ⟨count, hcount, h⟩ := bind_eq_ok_iff.1 h
    obtain ⟨q, hq, h⟩ := bind_eq_ok_iff.1 h
    obtain ⟨prepared, hprepared, h⟩ := bind_eq_ok_iff.1 h
    cases h
    unfold templateQuery at hq
    obtain ⟨⟨selections, target⟩, htarget, hq⟩ := bind_eq_ok_iff.1 hq
    cases hq
    exact .inr ⟨t, count, _, hparse, hshape, hcount, rfl, rfl, rfl, htarget, hprepared⟩

/-- A prepared select is ready for calls. -/
theorem ready_of_prepareSelect (h : prepareSelect schema q count = .ok prepared)
    (hroot : q.entity ∈ schema.entities) (hknown : q.target.isDynamic = false)
    (hselects : q.shape ≠ .bulk) : prepared.Ready schema q.shape := by
  unfold prepareSelect at h
  rw [if_neg (by simp [hknown])] at h
  obtain ⟨compiled, hcompiles, h⟩ := bind_eq_ok_iff.1 h
  cases h
  exact .select hroot hknown hselects rfl (mapError_eq_ok_iff.1 hcompiles)

/-- So is everything that was written as a query or as a change of a known target. -/
theorem ready_of_written (h : prepared.Written schema m.target shape)
    (hknown : m.target.isDynamic = false) : prepared.Ready schema shape := by
  cases h with
  | change changes prepares =>
    subst prepares
    exact .bulk changes
  | select registered known selects answers prepares =>
    subst answers
    exact ready_of_prepareSelect prepares registered (known hknown) selects

/-- A derived method is written so. -/
theorem written_of_prepareDerived (h : prepareDerived schema root m = .ok (shape, prepared))
    (hroot : root ∈ schema.entities) : prepared.Written schema m.target shape := by
  rcases prepareDerived_cases h with
    ⟨hbulk, _, hchange⟩ | ⟨hselects, _, rfl, hshape, _, htarget, hprepared⟩
  · exact .change hbulk hchange
  · exact .select hroot (fun hknown => htarget ▸ hknown) hselects hshape hprepared

/-- A select template answers with what is selected. -/
theorem ne_bulk_of_templateShape {countOnly : Bool} {declared : Option Shape}
    (h : templateShape countOnly declared = .ok shape) : shape ≠ .bulk := by
  unfold templateShape at h
  split at h <;> cases h
  all_goals simp_all

/-- A template is read as what was declared for it, or else as what was written in it. -/
theorem isDynamic_of_templateTarget {t : SelectTemplate} {declared target : Target}
    {selections : List Selection} (h : templateTarget t declared = .ok (selections, target))
    (hwritten : t.target.isDynamic = false) (hdeclared : declared.isDynamic = false) :
    target.isDynamic = false := by
  unfold templateTarget at h
  -- One case for each way in which the template's target meets the declared one.
  split at h
  · cases h
    exact hdeclared
  · cases h
    exact hwritten
  · split at h <;> cases h
    rfl
  · cases h
  · cases h
  · cases h
    exact hdeclared

/-- A template is written so. -/
theorem written_of_prepareTemplate (hschema : schema.Checked)
    (h : prepareTemplate schema m text = .ok (shape, prepared)) :
    prepared.Written schema m.target shape := by
  rcases prepareTemplate_cases h with ⟨_, _, _, hbulk, hchange⟩ |
    ⟨_, _, _, hparse, hshape, _, hentity, hqshape, _, htarget, hprepared⟩
  · exact .change hbulk hchange
  · refine .select ?_ (isDynamic_of_templateTarget htarget (Template.isDynamic_of_parse_select hparse))
      (ne_bulk_of_templateShape hshape) hqshape hprepared
    rw [hentity]
    exact (Template.sound_of_parse_select hschema hparse .list).registered

/-- A native select is ready, with a count where it is paged. -/
theorem ready_of_compileNative {q : NativeQuery} {compiled : Compiled}
    (h : q.compile = .ok compiled) (hknown : q.target.isDynamic = false) (hselects : q.shape ≠ .bulk) :
    (Prepared.native compiled).Ready schema q.shape := by
  unfold NativeQuery.compile at h
  split at h
  · cases h
  rename_i hcounts
  split at h
  · cases h
  cases h
  refine .native hknown hselects fun hpage => ?_
  -- A page without text for its count was refused.
  obtain ⟨text, htext⟩ := Option.ne_none_iff_exists'.1 fun hnone => hcounts ⟨hpage, hnone⟩
  simp [hpage, htext]

/-- So is a native method. -/
theorem ready_of_prepareNative {sql : String}
    (h : prepareNative schema root m sql = .ok (shape, prepared))
    (hknown : m.target.isDynamic = false) : prepared.Ready schema shape := by
  unfold prepareNative at h
  dsimp only at h
  split at h
  · rename_i hbulk
    cases h
    exact .bulk hbulk
  · rename_i hselects
    -- What follows is the same for the declared entity and for that of the repository.
    have hcompiled : ∀ {entity : Entity}, (do
        let compiled ← (NativeQuery.compile
          ⟨sql, m.countQuery, some entity, m.target, m.shape.getD .list⟩ : Except CompileDefect _)
        return (m.shape.getD .list, Prepared.native compiled) : Except Defect _) =
          .ok (shape, prepared) → prepared.Ready schema shape := by
      intro entity h
      obtain ⟨compiled, hcompiled, h⟩ := bind_eq_ok_iff.1 h
      cases h
      exact ready_of_compileNative (mapError_eq_ok_iff.1 hcompiled) hknown hselects
    split at h
    · exact hcompiled h
    · split at h
      · exact hcompiled h
      · cases h

/-- **A prepared method is ready**, if its target is known. -/
theorem ready_of_prepare (hschema : schema.Checked) (hroot : root ∈ schema.entities)
    (h : m.prepare schema root = .ok d) (hknown : m.target.isDynamic = false) :
    d.prepared.Ready schema d.shape := by
  rcases prepare_cases h with ⟨_, h⟩ | ⟨_, _, h⟩ | ⟨_, _, h⟩
  · exact ready_of_written (written_of_prepareDerived h hroot) hknown
  · exact ready_of_written (written_of_prepareTemplate hschema h) hknown
  · exact ready_of_prepareNative h hknown

/-- A method that is not text for the store is read against the schema. -/
theorem written_of_prepare (hschema : schema.Checked) (hroot : root ∈ schema.entities)
    (h : m.prepare schema root = .ok d) (hwritten : ∀ sql, m.source ≠ .native sql) :
    d.prepared.Written schema m.target d.shape := by
  rcases prepare_cases h with ⟨_, h⟩ | ⟨_, _, h⟩ | ⟨sql, hsql, _⟩
  · exact written_of_prepareDerived h hroot
  · exact written_of_prepareTemplate hschema h
  · exact absurd hsql (hwritten sql)

end MethodDeclaration

/-! ### Repositories -/

namespace Repository

variable {schema : Schema} {entity : Entity}

/-- A method is added if its name is new and it can be prepared, and then it stands behind the others. -/
theorem of_addMethod {definitions definitions' : List (String × Definition)}
    {m : MethodDeclaration} (h : addMethod schema entity definitions m = .ok definitions') :
    definitions.lookup m.name = none ∧
      ∃ d, m.prepare schema entity = .ok d ∧ definitions' = definitions ++ [(m.name, d)] := by
  unfold addMethod at h
  replace h := mapError_eq_ok_iff.1 h
  dsimp only at h
  split at h
  · cases h
  rename_i hnew
  obtain ⟨d, hd, h⟩ := bind_eq_ok_iff.1 h
  cases h
  exact ⟨Option.not_isSome_iff_eq_none.1 hnew, d, hd, rfl⟩

/-- A method that is added is found under its name, and all earlier ones are found as before. -/
theorem lookup_of_addMethod {definitions definitions' : List (String × Definition)}
    {m : MethodDeclaration} (h : addMethod schema entity definitions m = .ok definitions') :
    (∃ d, m.prepare schema entity = .ok d ∧ definitions'.lookup m.name = some d) ∧
      ∀ name d, definitions.lookup name = some d → definitions'.lookup name = some d := by
  obtain ⟨hnew, d, hd, rfl⟩ := of_addMethod h
  refine ⟨⟨d, hd, ?_⟩, fun name d' hd' => ?_⟩
  · rw [List.lookup_append, hnew]
    simp
  · rw [List.lookup_append, hd']
    rfl

/-- So are all the methods of a list. -/
theorem lookup_of_foldlM {methods : List MethodDeclaration}
    {definitions definitions' : List (String × Definition)}
    (h : methods.foldlM (addMethod schema entity) definitions = .ok definitions') :
    (∀ m ∈ methods, ∃ d, m.prepare schema entity = .ok d ∧ definitions'.lookup m.name = some d) ∧
      ∀ name d, definitions.lookup name = some d → definitions'.lookup name = some d := by
  induction methods generalizing definitions with
  | nil =>
    rw [List.foldlM_nil, pure_eq_ok_iff] at h
    subst h
    exact ⟨fun _ hm => absurd hm List.not_mem_nil, fun _ _ hd => hd⟩
  | cons m methods ih =>
    rw [List.foldlM_cons] at h
    obtain ⟨mid, hmid, h⟩ := bind_eq_ok_iff.1 h
    obtain ⟨⟨d, hd, hlookup⟩, hkeeps⟩ := lookup_of_addMethod hmid
    obtain ⟨hrest, hkeeps'⟩ := ih h
    exact ⟨List.forall_mem_cons.2 ⟨⟨d, hd, hkeeps' _ _ hlookup⟩, hrest⟩,
      fun name d hd => hkeeps' _ _ (hkeeps _ _ hd)⟩

/-- Whatever is held was held before, or it is a method as it was prepared. -/
theorem mem_of_foldlM {methods : List MethodDeclaration}
    {definitions definitions' : List (String × Definition)}
    (h : methods.foldlM (addMethod schema entity) definitions = .ok definitions') :
    ∀ entry ∈ definitions', entry ∈ definitions ∨
      ∃ m ∈ methods, m.name = entry.1 ∧ m.prepare schema entity = .ok entry.2 := by
  induction methods generalizing definitions with
  | nil =>
    rw [List.foldlM_nil, pure_eq_ok_iff] at h
    subst h
    exact fun _ hentry => .inl hentry
  | cons m methods ih =>
    rw [List.foldlM_cons] at h
    obtain ⟨mid, hmid, h⟩ := bind_eq_ok_iff.1 h
    obtain ⟨_, d, hd, rfl⟩ := of_addMethod hmid
    intro entry hentry
    -- An entry was there before, is the one just added, or comes from a later method.
    rcases ih h entry hentry with hbefore | ⟨m', hm', hprepared⟩
    · rcases List.mem_append.1 hbefore with hbefore | hnew
      · exact .inl hbefore
      · obtain rfl := List.mem_singleton.1 hnew
        exact .inr ⟨m, List.mem_cons_self, rfl, hd⟩
    · exact .inr ⟨m', List.mem_cons_of_mem _ hm', hprepared⟩

/-- A built repository holds nothing but its declared methods. -/
theorem exists_method_of_lookup {d : RepositoryDeclaration} {repository : Repository}
    (h : build schema d = .ok repository) {name : String} {found : Definition}
    (hlookup : repository.definitions.lookup name = some found) :
    ∃ m ∈ d.methods, m.name = name ∧ m.prepare schema repository.entity = .ok found := by
  unfold build at h
  split at h
  · cases h
  · obtain ⟨definitions, hmethods, h⟩ := bind_eq_ok_iff.1 h
    cases h
    replace hlookup : definitions.lookup name = some found := hlookup
    -- What is found under a name is an entry of the list.
    obtain ⟨before, after, hheld, _⟩ := List.lookup_eq_some_iff.1 hlookup
    have hmem : (name, found) ∈ definitions := by
      rw [hheld]
      exact List.mem_append_right _ List.mem_cons_self
    rcases mem_of_foldlM hmethods _ hmem with hnone | hdeclared
    · cases hnone
    · exact hdeclared

/-- **A built repository** is one of a registered entity, and holds each declared method as it was
    prepared. -/
theorem exists_lookup_of_build {d : RepositoryDeclaration} {repository : Repository}
    (h : build schema d = .ok repository) :
    repository.schema = schema ∧ repository.paging = d.paging ∧
      repository.entity ∈ schema.entities ∧
      ∀ m ∈ d.methods, ∃ prepared, m.prepare schema repository.entity = .ok prepared ∧
        repository.definitions.lookup m.name = some prepared := by
  unfold build at h
  split at h
  · cases h
  · rename_i entity hentity
    obtain ⟨definitions, hmethods, h⟩ := bind_eq_ok_iff.1 h
    cases h
    exact ⟨rfl, rfl, Schema.mem_entities_of_entity? hentity, (lookup_of_foldlM hmethods).1⟩

end Repository

end EntityQuery
