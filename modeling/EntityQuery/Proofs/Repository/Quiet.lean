import EntityQuery.Proofs.Repository.Calls
import EntityQuery.Proofs.Repository.Resolving
import EntityQuery.Proofs.Repository.Running

namespace EntityQuery

/-!
# Quiet work

Reading tells the owner of the records in memory which of them were loaded, and never invalidates any
(`Run.Quiet`).  There is one rule for each step, and so every call is quiet that is no change: those of
declared methods (`Repository.quiet_call`), the built-in ones, and resolving an association of a record
(`Repository.quiet_resolve`).
-/

variable {σ α β : Type}

/-- The entity whose records an event invalidates. -/
def Event.invalidated? : Event → Option String
  | .invalidated entity => some entity
  | .loaded _ _ _ => none

/-- The entities whose records were invalidated, in order. -/
def Exchange.invalidations (e : Exchange σ) : List String :=
  e.events.filterMap Event.invalidated?

/-- Work that invalidates nothing, whether it succeeds or not. -/
def Run.Quiet (x : Run σ α) : Prop :=
  ∀ e, (x e).2.invalidations = e.invalidations

namespace Run.Quiet

variable {store : Store σ}

/-- Sequences are quiet if both steps are. -/
theorem bind {x : Run σ α} {f : α → Run σ β} (h : x.Quiet) (hnext : ∀ a, (f a).Quiet) :
    (x >>= f).Quiet := by
  intro e
  rw [Run.bind_eq, ← h e]
  cases (x e).1 with
  | error fault => rfl
  | ok a => exact hnext a (x e).2

/-- Work that leaves the events alone. -/
theorem of_still {x : Run σ α} (h : ∀ e, (x e).2.events = e.events) : x.Quiet :=
  fun e => congrArg (List.filterMap Event.invalidated?) (h e)

theorem pure (a : α) : (Pure.pure a : Run σ α).Quiet := of_still fun _ => rfl

theorem throw (fault : Error) : (MonadExcept.throw fault : Run σ α).Quiet := of_still fun _ => rfl

theorem error (x : Except Error α) : (liftM x : Run σ α).Quiet := of_still fun _ => rfl

theorem parameter (x : Except ParameterFault α) : (liftM x : Run σ α).Quiet := of_still fun _ => rfl

theorem reading (x : Except ReadFault α) : (liftM x : Run σ α).Quiet := of_still fun _ => rfl

/-- Fetching invalidates nothing. -/
theorem fetch (b : Bound) (directives : Directives) : (Run.fetch store b directives).Quiet :=
  of_still fun _ => rfl

/-- What is told about loaded records invalidates none. -/
theorem report (plan : MappingPlan) (directives : Directives) (mapped : List Projected) :
    (Repository.report plan directives mapped : Run σ _).Quiet := by
  intro e
  have hnone : (plan.told mapped directives.readOnly).filterMap Event.invalidated? = [] := by
    refine List.filterMap_eq_nil_iff.2 fun event hevent => ?_
    obtain ⟨entity, rfl⟩ := MappingPlan.eq_loaded_of_mem_told hevent
    rfl
  rw [Repository.report_eq]
  unfold Exchange.invalidations
  rw [List.filterMap_append, hnone, List.append_nil]

end Run.Quiet

namespace Repository

open Run

variable {repository : Repository} {store : Store σ} {args : CallArguments} {directives : Directives}
variable {name : String}

/-! ### Reading -/

/-- Nor does fetching with a bound statement. -/
theorem quiet_fetchRows (statement : Statement) :
    (repository.fetchRows store statement args directives).Quiet :=
  .bind (.parameter _) fun bound => .fetch bound _

/-- Mapping tells of loaded records only. -/
theorem quiet_mapRows (plan : MappingPlan) (rows : RowSet) :
    (repository.mapRows plan rows directives : Run σ _).Quiet :=
  .bind (.reading _) fun mapped => .report plan directives mapped

/-- So fetching and mapping is quiet. -/
theorem quiet_fetchResults (statement : Statement) (plan : MappingPlan) :
    (repository.fetchResults store statement plan args directives).Quiet :=
  .bind (quiet_fetchRows statement) fun rows => quiet_mapRows plan rows

/-- And so is fetching one result. -/
theorem quiet_fetchSingle (statement : Statement) (plan : MappingPlan) :
    (repository.fetchSingle store name statement plan args directives).Quiet := by
  refine .bind (quiet_fetchResults statement plan) fun results => ?_
  match results with
  | [] => exact .pure none
  | [result] => exact .pure (some result)
  | _ :: _ :: _ => exact .throw (.ambiguous name)

/-- Counting is quiet. -/
theorem quiet_fetchCount (statement : Statement) :
    (repository.fetchCount store name statement args directives).Quiet :=
  .bind (quiet_fetchRows statement) fun rows => .reading (countOf name rows)

/-- A page is quiet. -/
theorem quiet_fetchPage (c : Compiled) (request : PageRequest) :
    (repository.fetchPage store name c args request directives).Quiet := by
  unfold fetchPage
  split
  · exact .throw _
  · refine .bind (.parameter _) fun offset => .bind (.parameter _) fun window => ?_
    refine .bind (quiet_fetchResults window c.plan) fun content => ?_
    exact .bind (quiet_fetchCount _) fun total => .pure _

/-- A slice is quiet. -/
theorem quiet_fetchSlice (c : Compiled) (request : PageRequest) :
    (repository.fetchSlice store c args request directives).Quiet := by
  refine .bind (.parameter _) fun offset => .bind (.parameter _) fun window => ?_
  refine .bind (quiet_fetchRows window) fun rows => ?_
  exact .bind (quiet_mapRows c.plan _) fun content => .pure _

/-- A call of a method that is no change is quiet. -/
theorem quiet_call (expected : Expected) {shape : Shape} (hreads : shape ≠ .bulk) :
    (repository.call store name args expected shape).Quiet := by
  cases shape with
  | single =>
    refine .bind (.bind (.error _) fun ⟨d, c⟩ => .bind (.parameter _) fun window => ?_) fun _ => .pure _
    exact .bind (quiet_fetchSingle window c.plan) fun result => .reading _
  | list =>
    refine .bind (.bind (.error _) fun ⟨d, c⟩ => .bind (.parameter _) fun window => ?_) fun _ => .pure _
    exact .bind (quiet_fetchResults window c.plan) fun results => .reading _
  | page =>
    refine .bind (.bind (.error _) fun d => .bind (.error _) fun request => .bind (.error _) fun c => ?_)
      fun _ => .pure _
    exact .bind (quiet_fetchPage c request) fun page => .reading _
  | slice =>
    refine .bind (.bind (.error _) fun d => .bind (.error _) fun request => .bind (.error _) fun c => ?_)
      fun _ => .pure _
    exact .bind (quiet_fetchSlice c request) fun slice => .reading _
  | count => exact .bind (.bind (.error _) fun ⟨d, c⟩ => quiet_fetchCount c.content) fun _ => .pure _
  | existence =>
    refine .bind (.bind (.error _) fun ⟨d, c⟩ => .bind (.parameter _) fun window => ?_) fun _ => .pure _
    exact .bind (quiet_fetchRows window) fun rows => .pure _
  -- The only shape that changes is excluded.
  | bulk => exact absurd rfl hreads

/-! ### Built-in calls -/

/-- Loading by identifier is quiet. -/
theorem quiet_load (entity : Entity) (id : Value) : (repository.load store entity id).Quiet := by
  refine .bind (.error _) fun c => .bind (.parameter _) fun window => ?_
  exact .bind (quiet_fetchSingle window c.plan) fun result => .reading _

/-- So is asking for one. -/
theorem quiet_existsById (id : Value) : (repository.existsById store id).Quiet := by
  refine .bind (.error _) fun c => .bind (.parameter _) fun window => ?_
  exact .bind (quiet_fetchRows window) fun rows => .pure _

/-- So is finding all records. -/
theorem quiet_findAll (order : SortOrder) : (repository.findAll store order).Quiet :=
  .bind (.error _) fun c => .bind (quiet_fetchResults c.content c.plan) fun _ => .reading _

/-- So is finding a page of them. -/
theorem quiet_findAllPage (request : PageRequest) : (repository.findAllPage store request).Quiet :=
  .bind (.error _) fun c => .bind (quiet_fetchPage c _) fun _ => .reading _

/-- And a slice. -/
theorem quiet_findAllSlice (request : PageRequest) : (repository.findAllSlice store request).Quiet :=
  .bind (.error _) fun c => .bind (quiet_fetchSlice c _) fun _ => .reading _

/-- Counting all is quiet. -/
theorem quiet_countAll : (repository.countAll store).Quiet :=
  .bind (.error _) fun c => quiet_fetchCount c.content

/-- Finding by example is quiet. -/
theorem quiet_findByExample (probe : Probe) (matcher : ExampleMatcher) :
    (repository.findByExample store probe matcher).Quiet :=
  .bind (.error _) fun c => .bind (quiet_fetchResults c.content c.plan) fun _ => .reading _

/-- And so is counting by example. -/
theorem quiet_countByExample (probe : Probe) (matcher : ExampleMatcher) :
    (repository.countByExample store probe matcher).Quiet :=
  .bind (.error _) fun c => quiet_fetchCount c.content

/-- Loading the many side of an association is quiet. -/
theorem quiet_loadMany (mappedBy : String) (target : Entity) (key : Value) :
    (repository.loadMany store name mappedBy target key).Quiet :=
  .bind (.error _) fun c => .bind (quiet_fetchResults c.content c.plan) fun _ => .reading _

/-- So is loading either side. -/
theorem quiet_loadLink (a : Association) (key : Value) : (repository.loadLink store a key).Quiet := by
  unfold loadLink
  split
  · exact .throw _
  · split
    · split
      · exact .pure _
      · exact .bind (quiet_load _ key) fun found => .pure _
    · exact .bind (quiet_loadMany _ _ key) fun found => .pure _

/-- Resolving an association is quiet. -/
theorem quiet_resolve (record : Record) (association : String) :
    (repository.resolve store record association).Quiet := by
  intro e
  show (repository.resolveInPlace store association record e).2.invalidations = e.invalidations
  rw [resolveInPlace_eq]
  split
  · rfl
  split
  · rfl
  rename_i a _
  split
  · rename_i key _
    -- Whatever becomes of the record, the exchange is the one in which its link was loaded.
    have hload : (repository.loadLink store a key e).2.invalidations = e.invalidations :=
      quiet_loadLink a key e
    split
    all_goals
      rename_i hloaded
      rw [hloaded] at hload
      exact hload
  · rfl

end Repository

end EntityQuery
