import EntityQuery.Proofs.Repository.Calls
import EntityQuery.Proofs.Repository.Running

namespace EntityQuery

/-!
# Sent statements

What a call can send is known before it runs.  A run adds statements to those that were sent before, and
`Run.Sends` says what holds of each of them, whether the run succeeds or not; there is one rule for each
step.  A call of a declared method sends windows of the content that was compiled for it, its count, or the
statement of its change, bound with its own arguments (`Repository.sends_call`), and a call whose compiled
form is not found sends nothing and fails (`Repository.call_of_uncompiled`).
-/

variable {σ α β : Type}

/-- What was sent before a run stays, and each statement that it sends has the property. -/
def Run.Sends (P : Bound → Prop) (x : Run σ α) : Prop :=
  ∀ e, ∃ more, (x e).2.sent = e.sent ++ more ∧ ∀ sent ∈ more, P sent.statement

namespace Run.Sends

variable {P : Bound → Prop} {store : Store σ}

/-- Sequences send what their steps send. -/
theorem bind {x : Run σ α} {f : α → Run σ β} (h : x.Sends P) (hnext : ∀ a, (f a).Sends P) :
    (x >>= f).Sends P := by
  intro e
  obtain ⟨more, hsent, hmore⟩ := h e
  rw [Run.bind_eq]
  cases (x e).1 with
  | error fault => exact ⟨more, hsent, hmore⟩
  | ok a =>
    obtain ⟨rest, hrest, hall⟩ := hnext a (x e).2
    refine ⟨more ++ rest, ?_, List.forall_mem_append.2 ⟨hmore, hall⟩⟩
    rw [← List.append_assoc, ← hsent]
    exact hrest

/-- Work that leaves the statements alone. -/
theorem of_still {x : Run σ α} (h : ∀ e, (x e).2.sent = e.sent) : x.Sends P :=
  fun e => ⟨[], (h e).trans (List.append_nil _).symm, nofun⟩

theorem pure (a : α) : (Pure.pure a : Run σ α).Sends P := of_still fun _ => rfl

theorem throw (fault : Error) : (MonadExcept.throw fault : Run σ α).Sends P := of_still fun _ => rfl

theorem error (x : Except Error α) : (liftM x : Run σ α).Sends P := of_still fun _ => rfl

theorem parameter (x : Except ParameterFault α) : (liftM x : Run σ α).Sends P := of_still fun _ => rfl

theorem reading (x : Except ReadFault α) : (liftM x : Run σ α).Sends P := of_still fun _ => rfl

theorem tell (event : Event) : (Run.tell event : Run σ Unit).Sends P := of_still fun _ => rfl

/-- What was found without the store is known to what follows. -/
theorem error_bind {x : Except Error α} {f : α → Run σ β} (hnext : ∀ a, x = .ok a → (f a).Sends P) :
    ((liftM x : Run σ α) >>= f).Sends P := by
  cases x with
  | error fault => exact of_still fun _ => rfl
  | ok a => exact hnext a rfl

/-- What follows looking at the parameters may rely on what was found. -/
theorem parameter_bind {x : Except ParameterFault α} {f : α → Run σ β}
    (hnext : ∀ a, x = .ok a → (f a).Sends P) : ((liftM x : Run σ α) >>= f).Sends P := by
  cases x with
  | error fault => exact of_still fun _ => rfl
  | ok a => exact hnext a rfl

/-- Fetching sends its statement. -/
theorem fetch {b : Bound} (h : P b) (directives : Directives) :
    (Run.fetch store b directives).Sends P :=
  fun _ => ⟨[⟨.fetch, b, directives⟩], rfl, List.forall_mem_singleton.2 h⟩

/-- So does changing. -/
theorem execute {b : Bound} (h : P b) (directives : Directives) :
    (Run.execute store b directives).Sends P :=
  fun _ => ⟨[⟨.execute, b, directives⟩], rfl, List.forall_mem_singleton.2 h⟩

/-- What is known of the statements may be weakened. -/
theorem imp {Q : Bound → Prop} {x : Run σ α} (h : x.Sends P) (himp : ∀ b, P b → Q b) : x.Sends Q := by
  intro e
  obtain ⟨more, hsent, hmore⟩ := h e
  exact ⟨more, hsent, fun sent hmem => himp _ (hmore sent hmem)⟩

end Run.Sends

/-! ### Statements of a call -/

/-- The statements of a compiled query: the windows of its content, and its count. -/
def Compiled.Offers (c : Compiled) (statement : Statement) : Prop :=
  (∃ limit offset, c.content.window limit offset = .ok statement) ∨ c.count = some statement

/-- The statements that a call can send. -/
inductive Repository.Offers (repository : Repository) (name : String) (args : CallArguments)
    (shape : Shape) : Statement → Prop
  | compiled {d : Definition} {c : Compiled} {statement : Statement}
      (definition : repository.definition name shape = .ok d)
      (compiled : repository.compiledFor name d args = .ok c) (offers : c.Offers statement) :
      Offers repository name args shape statement
  | change {d : Definition} {statement : Statement} {entity : String} {clears : Bool}
      (definition : repository.definition name shape = .ok d)
      (prepared : d.prepared = .bulk statement entity clears) : Offers repository name args shape statement

/-- A statement that is bound with the arguments of a call. -/
def CallArguments.BindsOne (args : CallArguments) (offers : Statement → Prop) (b : Bound) : Prop :=
  ∃ statement, offers statement ∧ statement.bind args.lookup = .ok b

namespace Repository

open Run

variable {repository : Repository} {store : Store σ} {args : CallArguments} {directives : Directives}
variable {offers : Statement → Prop} {name : String}

/-- Fetching sends the statement it is given, bound to the arguments. -/
theorem sends_fetchRows {statement : Statement} (h : offers statement) :
    (repository.fetchRows store statement args directives).Sends (args.BindsOne offers) :=
  .parameter_bind fun _ hbound => .fetch ⟨statement, h, hbound⟩ _

/-- Mapping sends nothing. -/
theorem sends_mapRows {P : Bound → Prop} (plan : MappingPlan) (rows : RowSet) :
    (repository.mapRows plan rows directives : Run σ _).Sends P := by
  refine .bind (.reading _) fun mapped => ?_
  show (report plan directives mapped).Sends P
  exact .of_still fun e => by rw [report_eq]

/-- So fetching and mapping sends that statement. -/
theorem sends_fetchResults {statement : Statement} (h : offers statement) (plan : MappingPlan) :
    (repository.fetchResults store statement plan args directives).Sends (args.BindsOne offers) :=
  .bind (sends_fetchRows h) fun rows => sends_mapRows plan rows

/-- And so does fetching one result. -/
theorem sends_fetchSingle {statement : Statement} (h : offers statement) (plan : MappingPlan) :
    (repository.fetchSingle store name statement plan args directives).Sends (args.BindsOne offers) := by
  refine .bind (sends_fetchResults h plan) fun results => ?_
  match results with
  | [] => exact .pure none
  | [result] => exact .pure (some result)
  | _ :: _ :: _ => exact .throw (.ambiguous name)

/-- A count sends its own statement. -/
theorem sends_fetchCount {statement : Statement} (h : offers statement) :
    (repository.fetchCount store name statement args directives).Sends (args.BindsOne offers) :=
  .bind (sends_fetchRows h) fun rows => .reading (countOf name rows)

/-- A page sends a window of the content and the count. -/
theorem sends_fetchPage {c : Compiled} (h : ∀ statement, c.Offers statement → offers statement)
    (request : PageRequest) :
    (repository.fetchPage store name c args request directives).Sends (args.BindsOne offers) := by
  unfold fetchPage
  split
  · exact .throw _
  · rename_i count hcount
    refine .bind (.parameter _) fun offset => .parameter_bind fun window hwindow => ?_
    refine .bind (sends_fetchResults (h _ (.inl ⟨_, _, hwindow⟩)) c.plan) fun content => ?_
    exact .bind (sends_fetchCount (h _ (.inr hcount))) fun total => .pure _

/-- A slice sends a window. -/
theorem sends_fetchSlice {c : Compiled} (h : ∀ statement, c.Offers statement → offers statement)
    (request : PageRequest) :
    (repository.fetchSlice store c args request directives).Sends (args.BindsOne offers) := by
  refine .bind (.parameter _) fun offset => .parameter_bind fun window hwindow => ?_
  refine .bind (sends_fetchRows (h _ (.inl ⟨_, _, hwindow⟩))) fun rows => ?_
  exact .bind (sends_mapRows c.plan _) fun content => .pure _

/-- **A call sends the statements that it offers**, bound with its arguments, and nothing else. -/
theorem sends_call (expected : Expected) (shape : Shape) :
    (repository.call store name args expected shape).Sends
      (args.BindsOne (repository.Offers name args shape)) := by
  have hselects : ∀ {d c}, repository.select name args shape = .ok (d, c) →
      ∀ statement, c.Offers statement → repository.Offers name args shape statement :=
    fun h _ => .compiled (select_ok_iff.1 h).1 (select_ok_iff.1 h).2
  cases shape with
  | single =>
    refine .bind (.error_bind fun ⟨d, c⟩ hselect => .parameter_bind fun window hwindow => ?_)
      fun _ => .pure _
    exact .bind (sends_fetchSingle (hselects hselect _ (.inl ⟨_, _, hwindow⟩)) c.plan)
      fun result => .reading _
  | list =>
    refine .bind (.error_bind fun ⟨d, c⟩ hselect => .parameter_bind fun window hwindow => ?_)
      fun _ => .pure _
    exact .bind (sends_fetchResults (hselects hselect _ (.inl ⟨_, _, hwindow⟩)) c.plan)
      fun results => .reading _
  | page =>
    refine .bind (.error_bind fun d hdefinition => .bind (.error _) fun request =>
      .error_bind fun c hcompiled => ?_) fun _ => .pure _
    exact .bind (sends_fetchPage (fun _ => .compiled hdefinition hcompiled) request) fun page => .reading _
  | slice =>
    refine .bind (.error_bind fun d hdefinition => .bind (.error _) fun request =>
      .error_bind fun c hcompiled => ?_) fun _ => .pure _
    exact .bind (sends_fetchSlice (fun _ => .compiled hdefinition hcompiled) request)
      fun slice => .reading _
  -- A count has no window.
  | count =>
    refine .bind (.error_bind fun ⟨d, c⟩ hselect => ?_) fun _ => .pure _
    exact sends_fetchCount (hselects hselect _ (.inl ⟨none, 0, rfl⟩))
  | existence =>
    refine .bind (.error_bind fun ⟨d, c⟩ hselect => .parameter_bind fun window hwindow => ?_)
      fun _ => .pure _
    exact .bind (sends_fetchRows (hselects hselect _ (.inl ⟨_, _, hwindow⟩))) fun rows => .pure _
  | bulk =>
    refine .bind (.error_bind fun d hdefinition => ?_) fun _ => .pure _
    split
    · rename_i statement entity clears hprepared
      refine .parameter_bind fun bound hbound => ?_
      refine .bind (.execute ⟨statement, .change hdefinition hprepared, hbound⟩ _) fun affected => ?_
      split
      · exact .bind (.tell _) fun _ => .pure _
      · exact .pure _
    · exact .throw _

/-! ### Calls without a compiled form -/

/-- **A call whose compiled form is not found fails at once**, for the same reason, unless it has a page that
    is refused before. -/
theorem call_of_uncompiled {d : Definition} {fault : Error} {shape : Shape} (hshape : shape ≠ .bulk)
    (hdefinition : repository.definition name shape = .ok d)
    (h : repository.compiledFor name d args = .error fault) (store : Store σ) (expected : Expected) :
    ∃ reason, repository.call store name args expected shape =
        liftM (.error reason : Except Error Response) ∧
      (reason = fault ∨ shape.isPaged = true ∧ repository.requestFor args = .error reason) := by
  have hselect : repository.select name args shape = .error fault := by
    unfold select
    rw [hdefinition, EntityQuery.ok_bind, h]
    rfl
  cases shape with
  | bulk => exact absurd rfl hshape
  | single | list | count | existence =>
    refine ⟨fault, ?_, .inl rfl⟩
    simp only [call, one, list, count, exists?, hselect]
    rfl
  | page | slice =>
    -- The page is looked at before the form.
    cases hrequest : repository.requestFor args with
    | error reason =>
      refine ⟨reason, ?_, .inr ⟨rfl, rfl⟩⟩
      simp only [call, page, slice, Run.ok_bind hdefinition, hrequest]
      rfl
    | ok request =>
      refine ⟨fault, ?_, .inl rfl⟩
      simp only [call, page, slice, Run.ok_bind hdefinition, Run.ok_bind hrequest, h]
      rfl

end Repository

end EntityQuery
