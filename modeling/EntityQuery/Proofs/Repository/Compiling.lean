import EntityQuery.Proofs.Plan.Retargeted
import EntityQuery.Proofs.Repository.Prepared

namespace EntityQuery

/-!
# Compiled forms

What a call of a select is compiled to.  The form that was prepared is taken where the call adds nothing to
the query, and otherwise the query is compiled again, for the target and in the order of the call; but that
makes no difference, because the prepared form was compiled from the same query
(`Repository.compiledFor_of_selects`).
-/

/-- A known target is used whatever the call gives. -/
theorem Target.resolve_of_known {declared : Target} (h : declared.isDynamic = false)
    (given : Option Target) : declared.resolve given = .ok declared := by
  cases declared <;> first | rfl | cases h

/-- A deferred target is the one the call gives. -/
theorem Target.resolve_dynamic {target : Target} (h : target.isDynamic = false) :
    Target.dynamic.resolve (some target) = .ok target := by
  cases target <;> first | rfl | cases h

/-! ### Prepared selects -/

/-- A select as it was prepared: compiled, or checked for whole records while its target is left to the
    calls. -/
inductive Prepared.Selects (schema : Schema) (q : Query) (count : Option Statement) : Prepared → Prop where
  | known {compiled : Compiled} (known : q.target.isDynamic = false)
    (compiles : q.compile schema = .ok compiled) :
    Selects schema q count (.select q (some (MethodDeclaration.withCount compiled count)) count)
  | deferred {records : Compiled} (deferred : q.target.isDynamic = true)
    (compiles : (q.withTarget .entity).compile schema = .ok records) :
    Selects schema q count (.select q none count)

namespace Prepared.Selects

variable {schema : Schema} {q : Query} {count : Option Statement} {prepared : Prepared}

/-- What is prepared from a query selects by it. -/
theorem of_prepareSelect (h : MethodDeclaration.prepareSelect schema q count = .ok prepared) :
    prepared.Selects schema q count := by
  unfold MethodDeclaration.prepareSelect at h
  split at h
  · rename_i hdeferred
    obtain ⟨records, hrecords, h⟩ := bind_eq_ok_iff.1 h
    cases h
    exact .deferred hdeferred (mapError_eq_ok_iff.1 hrecords)
  · rename_i hknown
    obtain ⟨compiled, hcompiles, h⟩ := bind_eq_ok_iff.1 h
    cases h
    exact .known (Bool.not_eq_true _ ▸ hknown) (mapError_eq_ok_iff.1 hcompiles)

/-- Either way the query compiles for whole records. -/
theorem exists_records (h : prepared.Selects schema q count) :
    ∃ records, (q.withTarget .entity).compile schema = .ok records := by
  cases h with
  | known _ compiles => exact Query.exists_compile_entity compiles
  | deferred _ compiles => exact ⟨_, compiles⟩

/-- With a known target it has been compiled once at the definition. -/
theorem exists_compiled (h : prepared.Selects schema q count) (hknown : q.target.isDynamic = false) :
    ∃ compiled, q.compile schema = .ok compiled := by
  cases h with
  | known _ compiles => exact ⟨_, compiles⟩
  | deferred deferred _ => exact absurd (hknown.symm.trans deferred) nofun

/-- Either way the query itself was kept. -/
theorem exists_select (h : prepared.Selects schema q count) :
    ∃ compiled, prepared = .select q compiled count := by
  cases h <;> exact ⟨_, rfl⟩

end Prepared.Selects

namespace Repository

variable {repository : Repository} {name : String} {d : Definition} {args : CallArguments}
variable {q : Query} {count : Option Statement} {target : Target}

/-! ### Directives of a call -/

/-- An order of fields is put behind the one of the query. -/
theorem extendOrder_eq {schema : Schema} {order : SortOrder}
    (h : ∀ directive ∈ order, schema.EndsInField q.entity directive.path) :
    extendOrder schema q order = .ok (q.sortedBy order) := by
  unfold extendOrder
  rw [forM_eq_ok_iff.2 fun directive hd => ?_]
  · rfl
  · obtain ⟨r, hr, _⟩ := h directive hd
    rw [hr]
    rfl

/-- Directives that can be added to a query are added behind its order. -/
theorem eq_sortedBy_of_extendOrder {schema : Schema} {q q' : Query} {order : SortOrder}
    (h : extendOrder schema q order = .ok q') : q' = q.sortedBy order := by
  unfold extendOrder at h
  obtain ⟨_, _, h⟩ := bind_eq_ok_iff.1 h
  cases h
  rfl

/-! ### Forms for a call -/

/-- The compiled form of a query in the order of a call. -/
def compiledWith (repository : Repository) (name : String) (q : Query) (count : Option Statement)
    (order : SortOrder) : Except Error Compiled :=
  Defect.within name do
    let q ← extendOrder repository.schema q order
    return MethodDeclaration.withCount
      (← (q.compile repository.schema : Except CompileDefect _)) count

variable {order : SortOrder} {c compiled : Compiled}

/-- What is compiled for a call is the query with the call's order, and with the written count. -/
theorem exists_compile_of_compiledWith
    (h : repository.compiledWith name q count order = .ok compiled) :
    ∃ c, (q.sortedBy order).compile repository.schema = .ok c ∧
      compiled = MethodDeclaration.withCount c count := by
  obtain ⟨extended, hextended, h⟩ := bind_eq_ok_iff.1 (mapError_eq_ok_iff.1 h)
  obtain ⟨c, hc, h⟩ := bind_eq_ok_iff.1 h
  cases h
  obtain rfl := eq_sortedBy_of_extendOrder hextended
  exact ⟨c, mapError_eq_ok_iff.1 hc, rfl⟩

/-- Conversely the query with the call's order is what is compiled for it. -/
theorem compiledWith_of_compile
    (horder : ∀ directive ∈ order, repository.schema.EndsInField q.entity directive.path)
    (h : (q.sortedBy order).compile repository.schema = .ok c) :
    repository.compiledWith name q count order = .ok (MethodDeclaration.withCount c count) := by
  unfold compiledWith
  rw [extendOrder_eq horder, ok_bind, h]
  rfl

/-- If that query has a defect, so has the definition. -/
theorem compiledWith_of_defect {defect : CompileDefect}
    (horder : ∀ directive ∈ order, repository.schema.EndsInField q.entity directive.path)
    (h : (q.sortedBy order).compile repository.schema = .error defect) :
    repository.compiledWith name q count order = .error (.definition name (.compile defect)) := by
  unfold compiledWith
  rw [extendOrder_eq horder, ok_bind, h]
  rfl

/-- **The compiled form for a call** is that of the query for the target and in the order of the call. -/
theorem compiledFor_of_selects (h : d.prepared.Selects repository.schema q count) (name : String)
    (args : CallArguments) :
    repository.compiledFor name d args = (do
      let target ← (q.target.resolve args.target : Except ReadFault _)
      repository.compiledWith name (q.withTarget target) count args.fullOrder) := by
  obtain ⟨_, directives, prepared⟩ := d
  unfold compiledFor
  cases h with
  | deferred => rfl
  | @known compiled known compiles =>
    cases horder : args.fullOrder with
    | cons directive more => rfl
    | nil =>
      -- The prepared form is taken, which was compiled from the same query.
      have hsame : ((q.withTarget q.target).sortedBy []).compile repository.schema = .ok compiled := by
        rw [Query.sortedBy_nil]
        exact compiles
      rw [Target.resolve_of_known known]
      exact (compiledWith_of_compile (fun _ hnone => absurd hnone List.not_mem_nil) hsame).symm

/-- Compiling for a call is compiling with the target that the call settles. -/
theorem compiledFor_of_target (h : d.prepared.Selects repository.schema q count) (name : String)
    (args : CallArguments) (htarget : q.target.resolve args.target = .ok target) :
    repository.compiledFor name d args =
      repository.compiledWith name (q.withTarget target) count args.fullOrder := by
  rw [compiledFor_of_selects h, htarget]
  rfl

/-- Without a target there is no compiled form. -/
theorem compiledFor_of_untargeted {fault : ReadFault} (h : d.prepared.Selects repository.schema q count)
    (name : String) (args : CallArguments) (htarget : q.target.resolve args.target = .error fault) :
    repository.compiledFor name d args = .error (.reading fault) := by
  rw [compiledFor_of_selects h, htarget]
  rfl

/-- What is compiled for a call is the query that was prepared, for the target of the call and with its order
    behind the own one. -/
theorem exists_compile_of_compiledFor (h : d.prepared.Selects repository.schema q count)
    (hcompiled : repository.compiledFor name d args = .ok compiled) :
    ∃ target c, q.target.resolve args.target = .ok target ∧
      ((q.withTarget target).sortedBy args.fullOrder).compile repository.schema = .ok c ∧
      compiled = MethodDeclaration.withCount c count := by
  rw [compiledFor_of_selects h] at hcompiled
  obtain ⟨target, htarget, hcompiled⟩ := bind_eq_ok_iff.1 hcompiled
  obtain ⟨c, hc, rfl⟩ := exists_compile_of_compiledWith hcompiled
  exact ⟨target, c, mapError_eq_ok_iff.1 htarget, hc, rfl⟩

end Repository

end EntityQuery
