import EntityQuery.Proofs.Repository.Compiling
import EntityQuery.Proofs.Repository.NativeOrder
import EntityQuery.Proofs.Repository.Quiet

namespace EntityQuery

/-!
# Invalidated records

A change leaves the records in memory behind.  If its method clears, the owner of the records is told to
invalidate those of one entity; if not, the caller is told that they are stale.  All that a change does is
said by one equation (`Repository.execute_eq`), and it succeeds exactly if the store carries it out
(`Repository.execute_ok_iff`).  Nothing else ever invalidates records, and neither does a change that fails.
So over any calls of any repositories the invalidations add up call by call
(`BuiltRepository.invalidations_accounted`).

The entity is fixed when the method is prepared (`MethodDeclaration.names_of_prepare`).  It is the one whose
rows change, unless a text for the store is declared to be about another entity: then it is the repository's
own all the same (`Repository.foreign_change_misnamed`).
-/

variable {σ α : Type}

namespace Repository

/-! ### Changes -/

/-- The statement that a change sends, the entity that it names, and whether its method clears. -/
def changeOf (repository : Repository) (name : String) (args : CallArguments) :
    Except Error (Bound × String × Bool) := do
  let d ← repository.definition name .bulk
  match d.prepared with
  | .bulk statement entity clears =>
    return (← (statement.bind args.lookup).mapError .parameter, entity, clears)
  | _ => throw (.definition name .noBulk)

/-- The store carries out the change of a method, on that many rows. -/
def CarriesOut (repository : Repository) (store : Store σ) (name : String) (args : CallArguments)
    (state : σ) (affected : Nat) : Prop :=
  ∃ bound entity clears, repository.changeOf name args = .ok (bound, entity, clears) ∧
    (store.execute bound { unit := some repository.unit } state).1 = .ok affected

variable {repository : Repository} {store : Store σ} {name : String} {args : CallArguments}

/-- A change is one that was prepared. -/
theorem exists_prepared_of_changeOf {bound : Bound} {entity : String} {clears : Bool}
    (h : repository.changeOf name args = .ok (bound, entity, clears)) :
    ∃ d statement, repository.definition name .bulk = .ok d ∧
      d.prepared = .bulk statement entity clears := by
  obtain ⟨d, hd, h⟩ := bind_eq_ok_iff.1 h
  cases hprepared : d.prepared with
  | bulk statement entity' clears' =>
    rw [hprepared] at h
    obtain ⟨_, _, h⟩ := bind_eq_ok_iff.1 h
    cases h
    exact ⟨d, statement, hd, hprepared⟩
  | select _ _ _ | native _ =>
    rw [hprepared] at h
    cases h

/-- **A change** finds its statement, sends it, and then tells of it or answers that records are stale. -/
theorem execute_eq :
    repository.execute store name args = (do
      let (bound, entity, clears) ← (repository.changeOf name args : Except Error _)
      let affected ← Run.execute store bound { unit := some repository.unit }
      if clears then
        Run.tell (.invalidated entity)
        return ⟨affected, none⟩
      else return ⟨affected, some entity⟩ : Run σ BulkOutcome) := by
  unfold execute changeOf
  cases repository.definition name .bulk with
  | error fault => rfl
  | ok d =>
    rw [Run.ok_bind rfl, ok_bind]
    cases d.prepared with
    | select _ _ _ | native _ => rfl
    | bulk statement entity clears =>
      dsimp only
      cases statement.bind args.lookup <;> rfl

/-- A change that the store does not carry out fails and invalidates nothing.  One that it carries out
    invalidates the records of its entity, or answers that they are stale. -/
theorem execute_cases (repository : Repository) (store : Store σ) (name : String) (args : CallArguments)
    (e : Exchange σ) :
    ((∀ affected, ¬ repository.CarriesOut store name args e.state affected) ∧
      (∃ fault, (repository.execute store name args e).1 = .error fault) ∧
      (repository.execute store name args e).2.invalidations = e.invalidations) ∨
    ∃ bound entity clears affected, repository.changeOf name args = .ok (bound, entity, clears) ∧
      (store.execute bound { unit := some repository.unit } e.state).1 = .ok affected ∧
      (repository.execute store name args e).1 =
        .ok ⟨affected, if clears then none else some entity⟩ ∧
      (repository.execute store name args e).2.invalidations =
        e.invalidations ++ if clears then [entity] else [] := by
  rw [execute_eq]
  cases hchange : repository.changeOf name args with
  | error fault =>
    refine .inl ⟨?_, ⟨fault, rfl⟩, rfl⟩
    rintro affected ⟨_, _, _, hfound, _⟩
    cases hchange.symm.trans hfound
  | ok change =>
    obtain ⟨bound, entity, clears⟩ := change
    have hanswer : (Run.execute store bound { unit := some repository.unit } e).1 =
      (store.execute bound { unit := some repository.unit } e.state).1 := rfl
    rw [Run.ok_bind rfl]
    dsimp only
    rw [Run.bind_eq, hanswer]
    cases hstore : (store.execute bound { unit := some repository.unit } e.state).1 with
    | error fault =>
      refine .inl ⟨?_, ⟨fault, rfl⟩, rfl⟩
      rintro affected ⟨_, _, _, hfound, hcarried⟩
      cases hchange.symm.trans hfound
      cases hstore.symm.trans hcarried
    | ok affected =>
      refine .inr ⟨bound, entity, clears, affected, rfl, hstore, ?_⟩
      -- Sending the change leaves the events alone, so that only what is told is new.
      cases clears
      · exact ⟨rfl, (List.append_nil _).symm⟩
      · exact ⟨rfl, List.filterMap_append⟩

/-- A change succeeds exactly if the store carries it out, and answers with the number of rows. -/
theorem execute_ok_iff {affected : Nat} {e : Exchange σ} :
    (∃ stale, (repository.execute store name args e).1 = .ok ⟨affected, stale⟩) ↔
      repository.CarriesOut store name args e.state affected := by
  -- Every run ends in one of two ways, and only in the second the store has changed anything.
  rcases repository.execute_cases store name args e with
    ⟨hnot, ⟨fault, hanswer⟩, _⟩ | ⟨bound, entity, clears, n, hchange, hstore, hanswer, _⟩
  · rw [hanswer]
    refine ⟨?_, fun h => absurd h (hnot affected)⟩
    rintro ⟨_, h⟩
    cases h
  · rw [hanswer]
    constructor
    · rintro ⟨_, h⟩
      cases h
      exact ⟨bound, entity, clears, hchange, hstore⟩
    · rintro ⟨_, _, _, hchange', hstore'⟩
      cases hchange.symm.trans hchange'
      cases hstore.symm.trans hstore'
      exact ⟨_, rfl⟩

end Repository

namespace MethodDeclaration

/-! ### What a change names -/

/-- The entity whose rows a change is declared to touch. -/
inductive Touches (schema : Schema) (root : Entity) (m : MethodDeclaration) : String → Prop where
  | derived (source : m.source = .derived) : Touches schema root m root.name
  | template {text : String} {q : BulkQuery} (source : m.source = .template text)
    (parses : Template.parse schema text = .ok (.bulk q)) : Touches schema root m q.entity.name
  | native {sql : String} (source : m.source = .native sql) :
    Touches schema root m (m.entity.getD root.name)

/-- Text for the store that is declared to be about another entity than the repository's own. -/
def IsForeignText (root : Entity) (m : MethodDeclaration) : Prop :=
  ∃ sql other, m.source = .native sql ∧ m.entity = some other ∧ other ≠ root.name

/-- The entity that a change names: the one whose rows change, except that foreign text names the
    repository's own. -/
structure Names (schema : Schema) (root : Entity) (m : MethodDeclaration) (entity : String) : Prop where
  touched : ¬ m.IsForeignText root → m.Touches schema root entity
  foreign : m.IsForeignText root → entity = root.name

variable {schema : Schema} {root : Entity} {m : MethodDeclaration}
variable {statement : Statement} {entity : String} {clears : Bool}

/-- What is prepared as a select is no change. -/
theorem ne_bulk_of_prepareSelect {q : Query} {count : Option Statement} :
    prepareSelect schema q count ≠ .ok (.bulk statement entity clears) := by
  intro h
  cases Prepared.Selects.of_prepareSelect h

/-- **What a change names** is fixed when its method is prepared, and so is whether it clears. -/
theorem names_of_prepare {d : Definition} (h : m.prepare schema root = .ok d)
    (hchange : d.prepared = .bulk statement entity clears) :
    clears = m.clears ∧ m.Names schema root entity := by
  rcases prepare_cases h with ⟨hsource, hprepare⟩ | ⟨text, hsource, hprepare⟩ | ⟨sql, hsource, _⟩
  · rw [hchange] at hprepare
    rcases prepareDerived_cases hprepare with ⟨_, _, hprepared⟩ | ⟨_, _, _, _, _, _, hprepared⟩
    · cases hprepared
      exact ⟨rfl, fun _ => .derived hsource, fun ⟨_, _, hnative, _⟩ => nomatch hsource.symm.trans hnative⟩
    · exact absurd hprepared ne_bulk_of_prepareSelect
  · rw [hchange] at hprepare
    rcases prepareTemplate_cases hprepare with
      ⟨b, _, hparse, _, hprepared⟩ | ⟨_, _, _, _, _, _, _, _, _, _, hprepared⟩
    · cases hprepared
      exact ⟨rfl, fun _ => .template hsource hparse,
        fun ⟨_, _, hnative, _⟩ => nomatch hsource.symm.trans hnative⟩
    · exact absurd hprepared ne_bulk_of_prepareSelect
  · rcases native_of_prepare hsource h with hprepared | ⟨_, _, _, hprepared, _⟩
    · cases hprepared.symm.trans hchange
      refine ⟨rfl, fun hown => ?_, fun _ => rfl⟩
      -- Without another entity, the declared one is the repository's own.
      have hroot : m.entity.getD root.name = root.name := by
        cases hentity : m.entity with
        | none => rfl
        | some other => exact by_contra fun hother => hown ⟨sql, other, hsource, hentity, hother⟩
      have htouches : m.Touches schema root (m.entity.getD root.name) := .native hsource
      rwa [hroot] at htouches
    · cases hprepared.symm.trans hchange

end MethodDeclaration

/-! ### Calls -/

/-- A call of a repository. -/
inductive Call where
  | declared (name : String) (args : CallArguments) (expected : Expected) (shape : Shape)
  | findById (id : Value)
  | existsById (id : Value)
  | findAll (order : SortOrder)
  | findAllPage (request : PageRequest)
  | findAllSlice (request : PageRequest)
  | countAll
  | findByExample (probe : Probe) (matcher : ExampleMatcher)
  | countByExample (probe : Probe) (matcher : ExampleMatcher)
  | resolve (record : Record) (association : String)

/-- The call of a method that changes rows. -/
def Call.isChange : Call → Bool
  | .declared _ _ _ .bulk => true
  | _ => false

/-- What an answer says about a change. -/
def Response.change? : Response → Option BulkOutcome
  | .change outcome => some outcome
  | _ => none

/-- Work whose answer is not about a change. -/
def Run.withoutOutcome (x : Run σ α) : Run σ (Option BulkOutcome) := do
  let _ ← x
  return none

namespace Repository

variable {repository : Repository} {store : Store σ} {name : String} {args : CallArguments}
variable {expected : Expected}

/-- Answers a call, as far as it is about a change. -/
def serve (repository : Repository) (store : Store σ) : Call → Run σ (Option BulkOutcome)
  | .declared name args expected shape =>
    return (← repository.call store name args expected shape).change?
  | .findById id => (repository.findById store id).withoutOutcome
  | .existsById id => (repository.existsById store id).withoutOutcome
  | .findAll order => (repository.findAll store order).withoutOutcome
  | .findAllPage request => (repository.findAllPage store request).withoutOutcome
  | .findAllSlice request => (repository.findAllSlice store request).withoutOutcome
  | .countAll => (repository.countAll store).withoutOutcome
  | .findByExample probe matcher => (repository.findByExample store probe matcher).withoutOutcome
  | .countByExample probe matcher => (repository.countByExample store probe matcher).withoutOutcome
  | .resolve record association => (repository.resolve store record association).withoutOutcome

/-- A change answers with its outcome. -/
theorem serve_change (e : Exchange σ) :
    repository.serve store (.declared name args expected .bulk) e =
      ((repository.execute store name args e).1.map some, (repository.execute store name args e).2) := by
  simp only [serve, call, bind_assoc, pure_bind]
  rw [Run.bind_eq]
  cases (repository.execute store name args e).1 <;> rfl

/-- A call of a method that is no change answers without an outcome. -/
theorem change?_of_call {shape : Shape} {response : Response} {e e' : Exchange σ} (hreads : shape ≠ .bulk)
    (h : repository.call store name args expected shape e = (.ok response, e')) :
    response.change? = none := by
  cases shape with
  | bulk => exact absurd rfl hreads
  | single | list | page | slice | count | existence =>
    obtain ⟨_, _, _, hresponse⟩ := Run.bind_ok_iff.1 h
    obtain ⟨rfl, _⟩ := Run.pure_ok_iff.1 hresponse
    rfl

end Repository

/-! ### Runs -/

/-- A repository as it was declared and built. -/
structure BuiltRepository where
  schema : Schema
  declared : RepositoryDeclaration
  repository : Repository
  built : Repository.build schema declared = .ok repository

namespace BuiltRepository

/-- Answers one call after the other, whether the ones before it succeeded or not. -/
def serveAll (store : Store σ) : List (BuiltRepository × Call) → Exchange σ →
    List (Except Error (Option BulkOutcome)) × Exchange σ
  | [], e => ([], e)
  | (r, call) :: calls, e =>
    let (answer, e) := r.repository.serve store call e
    let (answers, e) := serveAll store calls e
    (answer :: answers, e)

/-- What a call answers, and the entities whose records it invalidates. -/
inductive Tells (r : BuiltRepository) : Call → Except Error (Option BulkOutcome) → List String → Prop where
  | cleared {m : MethodDeclaration} {args : CallArguments} {expected : Expected} {affected : Nat}
    {entity : String} (declared : m ∈ r.declared.methods) (clears : m.clears = true)
    (names : m.Names r.schema r.repository.entity entity) :
    Tells r (.declared m.name args expected .bulk) (.ok (some ⟨affected, none⟩)) [entity]
  | stale {m : MethodDeclaration} {args : CallArguments} {expected : Expected} {affected : Nat}
    {entity : String} (declared : m ∈ r.declared.methods) (keeps : m.clears = false)
    (names : m.Names r.schema r.repository.entity entity) :
    Tells r (.declared m.name args expected .bulk) (.ok (some ⟨affected, some entity⟩)) []
  | failed {call : Call} {fault : Error} : Tells r call (.error fault) []
  | read {call : Call} (reads : call.isChange = false) : Tells r call (.ok none) []

variable {r : BuiltRepository} {store : Store σ} {call : Call} {e : Exchange σ}

/-- A quiet call without an outcome tells nothing. -/
theorem tells_of_quiet (hreads : call.isChange = false) {x : Run σ α} {outcome? : α → Option BulkOutcome}
    (h : x.Quiet) (hnone : ∀ a e e', x e = (.ok a, e') → outcome? a = none) :
    ∃ told, r.Tells call ((do return outcome? (← x) : Run σ _) e).1 told ∧
      ((do return outcome? (← x) : Run σ _) e).2.invalidations = e.invalidations ++ told := by
  refine ⟨[], ?_, (h.bind (fun a => .pure (outcome? a)) e).trans (List.append_nil _).symm⟩
  rw [Run.bind_eq]
  rcases hx : x e with ⟨fault | a, mid⟩
  · exact .failed
  · have hread : r.Tells call (.ok (outcome? a)) [] := by
      rw [hnone a e mid hx]
      exact .read hreads
    exact hread

/-- A run that invalidates nothing and changes nothing tells nothing. -/
theorem tells_withoutOutcome (hreads : call.isChange = false) {x : Run σ α} (h : x.Quiet) :
    ∃ told, r.Tells call (x.withoutOutcome e).1 told ∧
      (x.withoutOutcome e).2.invalidations = e.invalidations ++ told :=
  tells_of_quiet hreads h fun _ _ _ _ => rfl

/-- A change tells what its method was prepared for, or fails and tells nothing. -/
theorem tells_change {name : String} {args : CallArguments} {expected : Expected} :
    ∃ told,
      r.Tells (.declared name args expected .bulk)
        (r.repository.serve store (.declared name args expected .bulk) e).1 told ∧
      (r.repository.serve store (.declared name args expected .bulk) e).2.invalidations =
        e.invalidations ++ told := by
  rw [Repository.serve_change]
  rcases r.repository.execute_cases store name args e with
    ⟨_, ⟨fault, hanswer⟩, hquiet⟩ | ⟨_, entity, clears, affected, hchange, _, hanswer, htold⟩
  · rw [hanswer]
    exact ⟨[], .failed, hquiet.trans (List.append_nil _).symm⟩
  · rw [hanswer]
    refine ⟨_, ?_, htold⟩
    obtain ⟨d, statement, hd, hprepared⟩ := Repository.exists_prepared_of_changeOf hchange
    obtain ⟨m, hm, rfl, hprepare⟩ :=
      Repository.exists_method_of_lookup r.built (Repository.lookup_of_definition hd)
    obtain ⟨rfl, hnames⟩ := MethodDeclaration.names_of_prepare hprepare hprepared
    -- The entity goes into the outcome or into an event, never into both.
    cases hclears : m.clears with
    | false => exact .stale hm hclears hnames
    | true => exact .cleared hm hclears hnames

/-- **One call** tells what it has to, and adds it to what was told before. -/
theorem tells_serve (r : BuiltRepository) (store : Store σ) (call : Call) (e : Exchange σ) :
    ∃ told, r.Tells call (r.repository.serve store call e).1 told ∧
      (r.repository.serve store call e).2.invalidations = e.invalidations ++ told := by
  cases call with
  | declared name args expected shape =>
    by_cases hchange : shape = .bulk
    · subst hchange
      exact tells_change
    · have hreads : (Call.declared name args expected shape).isChange = false := by
        cases shape <;> first | rfl | exact absurd rfl hchange
      exact tells_of_quiet hreads (Repository.quiet_call expected hchange)
        fun _ _ _ => Repository.change?_of_call hchange
  -- All built-in operations read.
  | findById id => exact tells_withoutOutcome rfl (Repository.quiet_load _ id)
  | existsById id => exact tells_withoutOutcome rfl (Repository.quiet_existsById id)
  | findAll order => exact tells_withoutOutcome rfl (Repository.quiet_findAll order)
  | findAllPage request => exact tells_withoutOutcome rfl (Repository.quiet_findAllPage request)
  | findAllSlice request => exact tells_withoutOutcome rfl (Repository.quiet_findAllSlice request)
  | countAll => exact tells_withoutOutcome rfl Repository.quiet_countAll
  | findByExample probe matcher =>
    exact tells_withoutOutcome rfl (Repository.quiet_findByExample probe matcher)
  | countByExample probe matcher =>
    exact tells_withoutOutcome rfl (Repository.quiet_countByExample probe matcher)
  | resolve record association =>
    exact tells_withoutOutcome rfl (Repository.quiet_resolve record association)

/-- A change is answered with an outcome exactly if the store carries it out. -/
theorem serve_change_ok_iff {name : String} {args : CallArguments} {expected : Expected} {affected : Nat} :
    (∃ stale, (r.repository.serve store (.declared name args expected .bulk) e).1 =
        .ok (some ⟨affected, stale⟩)) ↔
      r.repository.CarriesOut store name args e.state affected := by
  rw [← Repository.execute_ok_iff, Repository.serve_change]
  refine exists_congr fun stale => ?_
  cases (r.repository.execute store name args e).1 <;> simp [Except.map]

/-- Calls are served one after the other. -/
theorem serveAll_cons (r : BuiltRepository) (call : Call) (calls : List (BuiltRepository × Call)) :
    serveAll store ((r, call) :: calls) e =
      ((r.repository.serve store call e).1 ::
          (serveAll store calls (r.repository.serve store call e).2).1,
        (serveAll store calls (r.repository.serve store call e).2).2) := rfl

/-- **Invalidations are accounted for, call by call.**  Over any calls of any repositories and any store, a
    change that succeeds invalidates the records of one entity, if its method clears, and reports none as
    stale; or it invalidates none, and reports those of the entity.  A change that fails invalidates none,
    and neither does any other call.  A change succeeds wherever the store carries it out. -/
theorem invalidations_accounted (store : Store σ) (calls : List (BuiltRepository × Call))
    (e : Exchange σ) :
    (∃ accounts : List (Except Error (Option BulkOutcome) × List String),
      (serveAll store calls e).1 = accounts.map Prod.fst ∧
      List.Forall₂ (fun call account => call.1.Tells call.2 account.1 account.2) calls accounts ∧
      (serveAll store calls e).2.invalidations = e.invalidations ++ accounts.flatMap Prod.snd) ∧
    ∀ (r : BuiltRepository) (name : String) (args : CallArguments) (expected : Expected) (affected : Nat),
      (∃ stale, (r.repository.serve store (.declared name args expected .bulk) e).1 =
          .ok (some ⟨affected, stale⟩)) ↔
        r.repository.CarriesOut store name args e.state affected := by
  refine ⟨?_, fun r name args expected affected => serve_change_ok_iff⟩
  -- Each call is accounted for from the state that the calls before it have left.
  induction calls generalizing e with
  | nil => exact ⟨[], rfl, .nil, (List.append_nil _).symm⟩
  | cons first calls ih =>
    obtain ⟨r, call⟩ := first
    obtain ⟨told, htells, htold⟩ := tells_serve r store call e
    obtain ⟨accounts, hanswers, haccounts, hrest⟩ := ih (r.repository.serve store call e).2
    rw [htold] at hrest
    refine ⟨((r.repository.serve store call e).1, told) :: accounts, ?_, .cons htells haccounts, ?_⟩
    · rw [serveAll_cons, hanswers, List.map_cons]
    · rw [serveAll_cons, List.flatMap_cons, ← List.append_assoc]
      exact hrest

end BuiltRepository

namespace Sample

/-- Members are deleted by their age, which clears, and a team is dissolved, which does not. -/
def pruning : RepositoryDeclaration where
  entity := "Member"
  methods := [
    { name := "deleteByAge", source := .derived, shape := some .bulk, clears := true },
    { name := "dissolve", source := .template "delete from Team t where t.id = ?1", shape := some .bulk }]
  unit := 0

/-- The repository that is built from this. -/
def pruner : BuiltRepository where
  schema := league
  declared := pruning
  repository := (Repository.build league pruning).toOption.get (by decide +kernel)
  built := toOption_eq_some_iff.1 (Option.some_get _).symm

/-- Members of two ages are deleted, a team is dissolved, and all members are read. -/
def prunes : List Call :=
  [.declared "deleteByAge" { positional := [.integer 20] } .anything .bulk,
    .declared "deleteByAge" { positional := [.integer 30] } .anything .bulk,
    .declared "dissolve" { positional := [.integer 1] } .anything .bulk, .findAll []]

/-- Two members are deleted, then the store is busy, then a team is deleted, and nobody is left. -/
def pruningReplies : Exchange (List Reply) :=
  ⟨[.affected 2, .failure ⟨.lockTimeout, "busy"⟩, .affected 1, .rows .empty], [], []⟩

end Sample

/-- Members are invalidated by the change that succeeds and clears, and by nothing else; the teams are
    stale. -/
theorem BuiltRepository.invalidations_accounted_pruner :
    ∃ accounts : List (Except Error (Option BulkOutcome) × List String),
      List.Forall₂ (fun call account => Sample.pruner.Tells call account.1 account.2) Sample.prunes
        accounts ∧
      accounts.flatMap Prod.snd = ["Member"] ∧
      accounts.map (fun account => account.1.toOption) =
        [some (some ⟨2, none⟩), none, some (some ⟨1, some "Team"⟩), some none] := by
  obtain ⟨⟨accounts, hanswers, htells, htold⟩, _⟩ :=
    invalidations_accounted .scripted (Sample.prunes.map fun call => (Sample.pruner, call))
      Sample.pruningReplies
  -- Of four calls one clears, one fails, one names its entity and one reads.
  have hinvalidated : (serveAll .scripted (Sample.prunes.map fun call => (Sample.pruner, call))
      Sample.pruningReplies).2.invalidations = ["Member"] := by decide +kernel
  have hanswered : (serveAll .scripted (Sample.prunes.map fun call => (Sample.pruner, call))
      Sample.pruningReplies).1.map Except.toOption =
        [some (some ⟨2, none⟩), none, some (some ⟨1, some "Team"⟩), some none] := by decide +kernel
  refine ⟨accounts, List.forall₂_map_left_iff.1 htells, ?_, ?_⟩
  · exact htold.symm.trans hinvalidated
  · rw [← hanswered, hanswers, List.map_map]
    rfl

namespace Sample

/-- A text that moves teams, declared to be about teams. -/
def moveTeams (name : String) (clears : Bool) : MethodDeclaration where
  name := name
  source := .native "update team set parent_id = ?"
  shape := some .bulk
  clears := clears
  entity := some "Team"

/-- Teams are moved by the repository of the members. -/
def movingTeams : RepositoryDeclaration where
  entity := "Member"
  methods := [moveTeams "moveTeams" false, moveTeams "moveTeamsAtOnce" true]
  unit := 0

end Sample

/-- **A foreign text names the repository's own entity.**  Teams are moved, by a text that is declared to be
    about teams, and it is the members that are reported as stale, or invalidated if the method clears. -/
theorem Repository.foreign_change_misnamed :
    (∀ name clears root entity, (Sample.moveTeams name clears).Touches Sample.league root entity →
      entity = "Team") ∧
    ∃ repository, build Sample.league Sample.movingTeams = .ok repository ∧
      (repository.execute .scripted "moveTeams" { positional := [.integer 1] }
        ⟨[.affected 1], [], []⟩).1.toOption = some ⟨1, some "Member"⟩ ∧
      (repository.execute .scripted "moveTeamsAtOnce" { positional := [.integer 1] }
        ⟨[.affected 1], [], []⟩).2.invalidations = ["Member"] := by
  constructor
  -- The text is about teams, and the method is declared for that entity.
  · intro name clears root entity htouches
    cases htouches with
    | derived source => cases source
    | template source _ => cases source
    | native _ => rfl
  have hread : (build Sample.league Sample.movingTeams).toOption.any (fun repository => decide (
      (repository.execute .scripted "moveTeams" { positional := [.integer 1] }
        ⟨[.affected 1], [], []⟩).1.toOption = some ⟨1, some "Member"⟩ ∧
      (repository.execute .scripted "moveTeamsAtOnce" { positional := [.integer 1] }
        ⟨[.affected 1], [], []⟩).2.invalidations = ["Member"])) = true := by decide +kernel
  obtain ⟨repository, hbuild, hruns⟩ := any_toOption_iff.1 hread
  exact ⟨repository, hbuild, of_decide_eq_true hruns⟩

end EntityQuery
