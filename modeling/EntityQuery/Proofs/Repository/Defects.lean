import EntityQuery.Proofs.Paging.Sizes
import EntityQuery.Proofs.Repository.Calls
import EntityQuery.Proofs.Repository.Compiling
import EntityQuery.Store.Sharing

namespace EntityQuery

/-!
# Definitions fail before they are called

What is wrong with a definition is found when its repository is built.  Each call either takes what
was prepared, or compiles it again for another order; the compiled form is there in both cases
(`Repository.exists_compiledFor`), and nothing after it blames a definition (`Run.Blameless`).
-/

variable {σ α β : Type}

/-- The orders that a call can ask for: those by fields of the queried entity.  Text for the store is
    called without any, and a change does not look at it. -/
def Definition.Admits (schema : Schema) (d : Definition) (order : SortOrder) : Prop :=
  match d.prepared with
  | .select q _ _ => ∀ directive ∈ order, schema.EndsInField q.entity directive.path
  | .native _ => order = []
  | .bulk _ _ _ => True

/-! ### Stores that know of no definition -/

/-- Whatever a store is asked, and however it fails, it does not report a defect of a definition. -/
structure Store.Blameless (store : Store σ) : Prop where
  fetch : ∀ statement directives state name defect,
    (store.fetch statement directives state).1 ≠ .error (.definition name defect)
  execute : ∀ statement directives state name defect,
    (store.execute statement directives state).1 ≠ .error (.definition name defect)

/-- Known replies are rows, numbers and failures of the store. -/
theorem Store.blameless_scripted : Store.scripted.Blameless := by
  constructor <;> intro _ _ replies name defect
  · show Reply.toRows replies.head? ≠ _
    rcases replies.head? with _ | ⟨_ | _ | _⟩ <;> exact nofun
  · show Reply.toAffected replies.head? ≠ _
    rcases replies.head? with _ | ⟨_ | _ | _⟩ <;> exact nofun

/-- Rows are missing because the store fails, or because they cannot be read. -/
theorem Answering.read_ne_definition {κ : Type} (answering : Answering κ) (name : String)
    (defect : Defect) : answering.read.1 ≠ .error (.definition name defect) := by
  induction answering with
  | finished _ => exact nofun
  | failed _ _ => exact nofun
  | row values stopped rest ih =>
    rw [read]
    split
    · exact nofun
    · exact fun h => ih (map_eq_error_iff.1 h)

/-- **Shared connections are such stores**, whatever connection it is that is shared. -/
theorem SharedConnection.blameless_store {κ : Type} [Connection κ Bound Bound] :
    (store : Store (SharedConnection κ)).Blameless := by
  constructor <;> intro statement directives s name defect
  · show (s.fetch statement directives).1 ≠ _
    unfold fetch
    split
    · exact nofun
    -- What is let through fails with the lock that it asks for, or with its answer.
    unfold acquire
    split
    · rename_i hacquire
      split at hacquire
      · split at hacquire
        · cases hacquire
        · cases hacquire
          exact nofun
      · cases hacquire
    · exact fun h => Answering.read_ne_definition _ name defect (map_eq_error_iff.1 h)
  · show (s.execute statement directives).1 ≠ _
    unfold execute
    split
    · exact nofun
    · dsimp only
      cases (Connection.execute statement s.connection).1 <;> exact nofun

/-! ### Compiled forms -/

/-- A page is compiled together with its count. -/
theorem Query.count_isSome_of_compile {schema : Schema} {q : Query} {c : Compiled}
    (h : q.compile schema = .ok c) (hpage : q.shape = .page) : c.count.isSome = true := by
  obtain ⟨s, _, h⟩ := bind_eq_ok_iff.1 h
  cases h
  simp [Select.compiled, hpage]

/-- A written count replaces the one that is there and adds none. -/
theorem MethodDeclaration.count_isSome_withCount (c : Compiled) (count : Option Statement) :
    (withCount c count).count.isSome = c.count.isSome := by
  unfold withCount
  cases c.count <;> cases count <;> simp

namespace Repository

variable {repository : Repository} {d : Definition} {args : CallArguments}

/-- **A method that is ready has a compiled form** for any call with an order that it admits. -/
theorem exists_compiledFor (name : String) (hschema : repository.schema.Checked)
    (h : d.prepared.Ready repository.schema d.shape) (hselects : d.shape ≠ .bulk)
    (hadmits : d.Admits repository.schema args.fullOrder) :
    ∃ c, repository.compiledFor name d args = .ok c ∧ (d.shape = .page → c.count.isSome = true) := by
  obtain ⟨shape, directives, prepared⟩ := d
  cases h with
  | @select q compiled count registered known _ answers compiles =>
    obtain ⟨c, hc⟩ := Query.exists_compile_sortedBy hschema registered compiles hadmits
    refine ⟨MethodDeclaration.withCount c count, ?_, fun hpage => ?_⟩
    · rw [compiledFor_of_target (.known known compiles) name args
        (Target.resolve_of_known known args.target)]
      exact compiledWith_of_compile hadmits hc
    · rw [MethodDeclaration.count_isSome_withCount]
      exact Query.count_isSome_of_compile hc (answers.trans hpage)
  -- A native query admits no order, so it stays as it was prepared.
  | @native compiled known _ counts =>
    refine ⟨compiled, ?_, counts⟩
    unfold compiledFor
    rw [show args.fullOrder = [] from hadmits]
    dsimp only
    rw [Target.resolve_of_known known]
    rfl
  | bulk changes => exact absurd changes hselects

/-- There is always a page to ask for, if the default size has room for a row. -/
theorem exists_requestFor (h : repository.paging.defaultSize ≠ 0) (args : CallArguments) :
    ∃ request, repository.requestFor args = .ok request := by
  unfold requestFor
  cases args.page with
  | some request => exact ⟨_, rfl⟩
  | none =>
    unfold PageRequest.of
    rw [if_neg h]
    exact ⟨_, rfl⟩

end Repository

/-- Settings that were checked have a default size. -/
theorem PagingSettings.defaultSize_ne_zero {p : PagingSettings} (h : p.check = .ok ()) :
    p.defaultSize ≠ 0 :=
  Nat.ne_of_gt (check_eq_ok_iff.1 h).1

/-! ### Runs that blame no definition -/

/-- However the run ends, it does not end with a defect of a definition. -/
def Run.Blameless (x : Run σ α) : Prop := ∀ e name defect, (x e).1 ≠ .error (.definition name defect)

namespace Run.Blameless

/-- Sequences are blameless if both steps are. -/
theorem bind {x : Run σ α} {f : α → Run σ β} (h : x.Blameless) (hnext : ∀ a, (f a).Blameless) :
    (x >>= f).Blameless := by
  intro e name defect
  have hx := h e name defect
  rw [Run.bind_eq]
  cases hanswer : (x e).1 with
  | error fault =>
    rw [hanswer] at hx
    exact fun heq => hx (congrArg Except.error (Except.error.inj heq))
  | ok a => exact hnext a _ name defect

/-- A definition that was found is not blamed. -/
theorem bind_ok {x : Except Error α} {f : α → Run σ β} {a : α} (h : x = .ok a)
    (hnext : (f a).Blameless) : ((liftM x : Run σ α) >>= f).Blameless := by
  subst h
  exact hnext

theorem pure (a : α) : (Pure.pure a : Run σ α).Blameless := fun _ _ _ => nofun

theorem ambiguous (name : String) :
    (MonadExcept.throw (Error.ambiguous name) : Run σ α).Blameless := fun _ _ _ => nofun

/-- A fault of the parameters is no defect of a definition. -/
theorem parameter (x : Except ParameterFault α) : (liftM x : Run σ α).Blameless := by
  intro e name defect
  show x.mapError _ ≠ _
  cases x <;> exact nofun

/-- Nor is a fault of reading. -/
theorem reading (x : Except ReadFault α) : (liftM x : Run σ α).Blameless := by
  intro e name defect
  show x.mapError _ ≠ _
  cases x <;> exact nofun

theorem tell (event : Event) : (Run.tell event : Run σ Unit).Blameless := fun _ _ _ => nofun

variable {store : Store σ}

/-- A store that blames no definition answers without blaming any. -/
theorem fetch (h : store.Blameless) (statement : Bound) (directives : Directives) :
    (Run.fetch store statement directives).Blameless := fun e =>
  h.fetch statement directives e.state

/-- So it does when it changes something. -/
theorem execute (h : store.Blameless) (statement : Bound) (directives : Directives) :
    (Run.execute store statement directives).Blameless := fun e =>
  h.execute statement directives e.state

end Run.Blameless

/-! ### Calls -/

namespace Repository

open Run

section Steps

variable {repository : Repository} {store : Store σ} {args : CallArguments} {directives : Directives}
variable (hstore : store.Blameless)
include hstore

/-- Fetching blames no definition. -/
theorem blameless_fetchRows (statement : Statement) :
    (repository.fetchRows store statement args directives).Blameless :=
  .bind (.parameter _) fun bound => .fetch hstore bound _

omit hstore in
/-- Mapping the rows blames none. -/
theorem blameless_mapRows (plan : MappingPlan) (rows : RowSet) :
    (repository.mapRows plan rows directives : Run σ _).Blameless := by
  refine .bind (.reading _) fun mapped => ?_
  show (report plan directives mapped).Blameless
  intro e name defect
  rw [report_eq]
  exact nofun

/-- So fetching and mapping blames none. -/
theorem blameless_fetchResults (statement : Statement) (plan : MappingPlan) :
    (repository.fetchResults store statement plan args directives).Blameless :=
  .bind (blameless_fetchRows hstore statement) fun rows => blameless_mapRows plan rows

/-- Nor does fetching one result, which may be ambiguous. -/
theorem blameless_fetchSingle (name : String) (statement : Statement) (plan : MappingPlan) :
    (repository.fetchSingle store name statement plan args directives).Blameless := by
  refine .bind (blameless_fetchResults hstore statement plan) fun results => ?_
  match results with
  | [] => exact .pure none
  | [result] => exact .pure (some result)
  | _ :: _ :: _ => exact .ambiguous name

/-- Nor does counting. -/
theorem blameless_fetchCount (name : String) (statement : Statement) :
    (repository.fetchCount store name statement args directives).Blameless :=
  .bind (blameless_fetchRows hstore statement) fun rows => .reading (countOf name rows)

/-- A page can be fetched only with its count. -/
theorem blameless_fetchPage (name : String) {compiled : Compiled} (hcount : compiled.count.isSome = true)
    (request : PageRequest) :
    (repository.fetchPage store name compiled args request directives).Blameless := by
  obtain ⟨count, hcount⟩ := Option.isSome_iff_exists.1 hcount
  unfold fetchPage
  rw [hcount]
  refine .bind (.parameter _) fun offset => .bind (.parameter _) fun window => ?_
  refine .bind (blameless_fetchResults hstore window compiled.plan) fun content => ?_
  exact .bind (blameless_fetchCount hstore name count) fun total => .pure _

/-- Nor does fetching a slice; a page needs a count besides, so it has a lemma of its own. -/
theorem blameless_fetchSlice (compiled : Compiled) (request : PageRequest) :
    (repository.fetchSlice store compiled args request directives).Blameless := by
  refine .bind (.parameter _) fun offset => .bind (.parameter _) fun window => ?_
  refine .bind (blameless_fetchRows hstore window) fun rows => ?_
  exact .bind (blameless_mapRows compiled.plan _) fun content => .pure _

/-- A change was prepared as one, so its statement is there. -/
theorem blameless_execute {name : String} {d : Definition}
    (hdefinition : repository.definition name .bulk = .ok d)
    (hready : d.prepared.Ready repository.schema .bulk) :
    (repository.execute store name args).Blameless := by
  refine .bind_ok hdefinition ?_
  obtain ⟨shape, directives, prepared⟩ := d
  cases hready with
  | select _ _ selects => exact absurd rfl selects
  | native _ selects => exact absurd rfl selects
  | @bulk statement entity clears =>
    refine .bind (.parameter _) fun bound => .bind (.execute hstore _ _) fun affected => ?_
    cases clears
    · exact .pure _
    · exact .bind (.tell _) fun _ => .pure _

/-- **A call of a method that is ready blames no definition.** -/
theorem blameless_call (hschema : repository.schema.Checked)
    (hpaging : repository.paging.defaultSize ≠ 0) {name : String} {d : Definition}
    (hlookup : repository.definitions.lookup name = some d)
    (hready : d.prepared.Ready repository.schema d.shape)
    (hadmits : d.Admits repository.schema args.fullOrder) (expected : Expected) :
    (repository.call store name args expected d.shape).Blameless := by
  have hdefinition : repository.definition name d.shape = .ok d :=
    (definition_of_lookup hlookup d.shape).trans (if_pos rfl)
  by_cases hbulk : d.shape = .bulk
  · rw [hbulk] at hdefinition hready ⊢
    exact .bind (blameless_execute hstore hdefinition hready) fun _ => .pure _
  obtain ⟨compiled, hcompiled, hcounts⟩ := exists_compiledFor name hschema hready hbulk hadmits
  obtain ⟨request, hrequest⟩ := exists_requestFor hpaging args
  have hselect : repository.select name args d.shape = .ok (d, compiled) := by
    unfold select
    rw [hdefinition, ok_bind, hcompiled]
    rfl
  clear hready hadmits
  -- Every shape finds its compiled form, and what it sends after that blames nothing.
  generalize d.shape = shape at *
  cases shape with
  | bulk => exact absurd rfl hbulk
  | single =>
    refine .bind (.bind_ok hselect (.bind (.parameter _) fun window => ?_)) fun _ => .pure _
    exact .bind (blameless_fetchSingle hstore name window compiled.plan) fun result => .reading _
  | list =>
    refine .bind (.bind_ok hselect (.bind (.parameter _) fun window => ?_)) fun _ => .pure _
    exact .bind (blameless_fetchResults hstore window compiled.plan) fun results => .reading _
  | page =>
    refine .bind (.bind_ok hdefinition (.bind_ok hrequest (.bind_ok hcompiled ?_))) fun _ => .pure _
    exact .bind (blameless_fetchPage hstore name (hcounts rfl) request) fun page => .reading _
  | slice =>
    refine .bind (.bind_ok hdefinition (.bind_ok hrequest (.bind_ok hcompiled ?_))) fun _ => .pure _
    exact .bind (blameless_fetchSlice hstore compiled request) fun slice => .reading _
  | count =>
    refine .bind (.bind_ok hselect ?_) fun _ => .pure _
    exact blameless_fetchCount hstore name compiled.content
  | existence =>
    refine .bind (.bind_ok hselect (.bind (.parameter _) fun window => ?_)) fun _ => .pure _
    exact .bind (blameless_fetchRows hstore window) fun rows => .pure _

end Steps

/-- **Definitions fail before they are called.**  In a repository that was built over a built schema,
    with sizes of pages that were checked, each declared method whose target is known is found under
    its name.  No call of it, in the shape that it was prepared with, reports a defect of a
    definition, whatever its arguments and its page are, whatever the store answers, if it knows of no
    definitions itself, and whatever happened before, as long as the call is ordered as
    `Definition.Admits` says. -/
theorem call_ne_definition {entities : List Entity} {schema : Schema}
    (hbuilt : Schema.build entities = .ok schema) {declared : RepositoryDeclaration}
    (hpaging : declared.paging.check = .ok ()) {repository : Repository}
    (h : build schema declared = .ok repository) {m : MethodDeclaration} (hm : m ∈ declared.methods)
    (hknown : m.target.isDynamic = false) :
    ∃ d, m.prepare schema repository.entity = .ok d ∧
      repository.definitions.lookup m.name = some d ∧
      ∀ {σ : Type} {store : Store σ}, store.Blameless →
        ∀ args expected, d.Admits schema args.fullOrder → ∀ (e : Exchange σ) name defect,
          (repository.call store m.name args expected d.shape e).1 ≠ .error (.definition name defect) := by
  obtain ⟨rfl, hsettings, hroot, hmethods⟩ := exists_lookup_of_build h
  obtain ⟨d, hd, hlookup⟩ := hmethods m hm
  have hschema := Schema.checked_of_build hbuilt
  refine ⟨d, hd, hlookup, fun hstore args expected hadmits => ?_⟩
  exact blameless_call hstore hschema (hsettings ▸ PagingSettings.defaultSize_ne_zero hpaging) hlookup
    (MethodDeclaration.ready_of_prepare hschema hroot hd hknown) hadmits expected

end Repository

namespace Sample

/-- The members of a team page by page, and the ages above one. -/
def roll : RepositoryDeclaration where
  entity := "Member"
  methods := [
    { name := "findByTeamIdOrderByAge", source := .derived, shape := some .page },
    { name := "agesAbove", source := .template "select m.age from Member m where m.age > ?1" }]
  unit := 0

/-- The first two members of a team, ordered further than by their age. -/
def sortedArguments : CallArguments where
  positional := [.integer 1]
  page := some ⟨0, 2, [⟨⟨["id"]⟩, .ascending⟩]⟩
  order := [⟨⟨["team", "parent", "id"]⟩, .descending⟩]

end Sample

/-- The order of the call has the page compiled again, with one more join; then the store is busy. -/
theorem Repository.call_ne_definition_roll :
    ∃ repository d, build Sample.league Sample.roll = .ok repository ∧
      repository.definitions.lookup "findByTeamIdOrderByAge" = some d ∧ d.shape = .page ∧
      d.Admits Sample.league Sample.sortedArguments.fullOrder ∧ ∀ name defect,
        (repository.call .scripted "findByTeamIdOrderByAge" Sample.sortedArguments .anything .page
          ⟨[.failure ⟨.lockTimeout, "busy"⟩], [], []⟩).1 ≠ .error (.definition name defect) := by
  have hread : (build Sample.league Sample.roll).toOption.any (fun repository =>
      (repository.definitions.lookup "findByTeamIdOrderByAge").any fun
        | ⟨shape, _, .select q _ _⟩ => decide (shape = .page ∧ q.entity = Sample.member)
        | _ => false) = true := by decide +kernel
  obtain ⟨repository, hbuild, hmethod⟩ := any_toOption_iff.1 hread
  obtain ⟨d, _, hlookup, hcalls⟩ := call_ne_definition
    (show Schema.build [Sample.team, Sample.member] = .ok Sample.league by decide) (by decide) hbuild
    (List.mem_cons_self : _ ∈ Sample.roll.methods) rfl
  rw [hlookup] at hmethod
  obtain ⟨shape, directives, prepared⟩ := d
  cases prepared with
  | select q compiled count =>
    obtain ⟨rfl, hentity⟩ := of_decide_eq_true hmethod
    -- The call sorts by a field of the member.
    have hadmits : Definition.Admits Sample.league ⟨.page, directives, .select q compiled count⟩
        Sample.sortedArguments.fullOrder := by
      show ∀ directive ∈ _, _
      rw [hentity]
      decide
    exact ⟨repository, _, hbuild, hlookup, rfl, hadmits,
      hcalls Store.blameless_scripted Sample.sortedArguments .anything hadmits _⟩
  | native _ => cases hmethod
  | bulk _ _ _ => cases hmethod

end EntityQuery
