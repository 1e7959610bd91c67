import EntityQuery.Proofs.Outcome
import EntityQuery.Repository.Call

namespace EntityQuery

/-!
# Successful calls

Work that talks to a store, read backwards from its success: each step succeeded in turn, and the
exchange after it is known.  What every later module needs of a call is said here once,

* `Run.bind_ok_iff` and its companions for the single steps,
* `Repository.fetchRows_ok_iff` and `Repository.mapRows_ok_iff` for statements and their rows,
* `Repository.fetchPage_ok_iff` and `Repository.fetchSlice_ok_iff` for the parts of a result.
-/

variable {σ α β : Type}

namespace Run

variable {e e' : Exchange σ}

/-- The second of two steps sees the answer of the first, and the exchange after it. -/
theorem bind_eq (x : Run σ α) (f : α → Run σ β) (e : Exchange σ) :
    (x >>= f) e = ExceptT.bindCont f (x e).1 (x e).2 := rfl

/-- A sequence succeeds exactly if both of its steps do, in turn. -/
theorem bind_ok_iff {x : Run σ α} {f : α → Run σ β} {b : β} :
    (x >>= f) e = (.ok b, e') ↔ ∃ a mid, x e = (.ok a, mid) ∧ f a mid = (.ok b, e') := by
  rw [bind_eq]
  rcases x e with ⟨_ | a, mid⟩
  · -- A step that fails is the last one.
    constructor
    · intro h
      cases h
    · rintro ⟨a, mid, h, _⟩
      cases h
  · constructor
    · exact fun h => ⟨a, mid, rfl, h⟩
    · rintro ⟨a, mid, h, hf⟩
      cases h
      exact hf

/-- A value that is just given leaves the store alone. -/
theorem pure_ok_iff {a b : α} : (pure a : Run σ α) e = (.ok b, e') ↔ a = b ∧ e = e' := by
  show ((Except.ok a, e) : Except Error α × Exchange σ) = _ ↔ _
  simp

/-- So does looking at the parameters. -/
theorem parameter_ok_iff {x : Except ParameterFault α} {a : α} :
    (liftM x : Run σ α) e = (.ok a, e') ↔ x = .ok a ∧ e = e' := by
  show (Except.mapError _ x, e) = (Except.ok a, e') ↔ _
  cases x <;> simp [Except.mapError]

/-- So does reading an answer. -/
theorem reading_ok_iff {x : Except ReadFault α} {a : α} :
    (liftM x : Run σ α) e = (.ok a, e') ↔ x = .ok a ∧ e = e' := by
  show (Except.mapError _ x, e) = (Except.ok a, e') ↔ _
  cases x <;> simp [Except.mapError]

/-- And so does what needs no store. -/
theorem error_ok_iff {x : Except Error α} {a : α} :
    (liftM x : Run σ α) e = (.ok a, e') ↔ x = .ok a ∧ e = e' := by
  show (x, e) = (Except.ok a, e') ↔ _
  simp

/-- A statement that is answered is sent, and leaves the store in its next state. -/
theorem fetch_ok_iff {store : Store σ} {statement : Bound} {directives : Directives} {rows : RowSet} :
    fetch store statement directives e = (.ok rows, e') ↔
      ∃ state, store.fetch statement directives e.state = (.ok rows, state) ∧
        e' = { e with state, sent := e.sent ++ [⟨.fetch, statement, directives⟩] } := by
  unfold fetch
  rcases store.fetch statement directives e.state with ⟨answer, state⟩
  constructor
  · intro h
    cases h
    exact ⟨state, rfl, rfl⟩
  · rintro ⟨_, h, rfl⟩
    cases h
    rfl

end Run

/-- The identifier of a record. -/
def Projected.id? : Projected → Option Value
  | .record r => some r.id
  | _ => none

/-- What is told about the records among some results. -/
def MappingPlan.told (plan : MappingPlan) (results : List Projected) (readOnly : Bool) : List Event :=
  match plan.entity with
  | some entity =>
    let ids := results.filterMap Projected.id?
    if ids.isEmpty then [] else [.loaded entity.name ids readOnly]
  | none => []

/-- All that is told about some results is the identifiers of the records among them. -/
theorem MappingPlan.eq_loaded_of_mem_told {plan : MappingPlan} {results : List Projected}
    {readOnly : Bool} {event : Event} (h : event ∈ plan.told results readOnly) :
    ∃ entity, event = .loaded entity (results.filterMap Projected.id?) readOnly := by
  unfold told at h
  split at h
  · rename_i entity _
    dsimp only at h
    split at h
    · cases h
    · exact ⟨entity.name, List.mem_singleton.1 h⟩
  · cases h

namespace Repository

open Run

variable {repository : Repository} {store : Store σ} {e e' : Exchange σ}
variable {args : CallArguments} {directives : Directives}

/-! ### Statements and their rows -/

/-- The directives that a statement of a repository is sent with. -/
def sending (repository : Repository) (directives : Directives) : Directives :=
  { directives with unit := directives.unit.or (some repository.unit) }

/-- Fetching is binding the statement and sending it. -/
theorem fetchRows_ok_iff {statement : Statement} {rows : RowSet} :
    repository.fetchRows store statement args directives e = (.ok rows, e') ↔
      ∃ bound, statement.bind args.lookup = .ok bound ∧
        Run.fetch store bound (repository.sending directives) e = (.ok rows, e') := by
  unfold fetchRows
  rw [bind_ok_iff]
  simp only [parameter_ok_iff]
  constructor
  · rintro ⟨bound, _, ⟨hbound, rfl⟩, h⟩
    exact ⟨bound, hbound, h⟩
  · rintro ⟨bound, hbound, h⟩
    exact ⟨bound, e, ⟨hbound, rfl⟩, h⟩

/-- Rows leave the events of an exchange alone. -/
theorem events_fetchRows {statement : Statement} {rows : RowSet}
    (h : repository.fetchRows store statement args directives e = (.ok rows, e')) :
    e'.events = e.events := by
  obtain ⟨bound, _, h⟩ := fetchRows_ok_iff.1 h
  obtain ⟨state, _, rfl⟩ := fetch_ok_iff.1 h
  rfl

/-- Tells which of some results are records, and passes the results on. -/
def report (plan : MappingPlan) (directives : Directives) (mapped : List Projected) :
    Run σ (List Projected) := do
  let ids := mapped.filterMap Projected.id?
  match plan.entity with
  | some entity => if !ids.isEmpty then Run.tell (.loaded entity.name ids directives.readOnly)
  | none => pure ()
  return mapped

/-- Reporting tells of the loaded records, once and at the end. -/
theorem report_eq (plan : MappingPlan) (directives : Directives) (mapped : List Projected) :
    report plan directives mapped e =
      (.ok mapped, { e with events := e.events ++ plan.told mapped directives.readOnly }) := by
  unfold report MappingPlan.told
  cases plan.entity with
  | none => simp; rfl
  | some entity =>
    dsimp only
    cases (mapped.filterMap Projected.id?).isEmpty
    · rfl
    · simp; rfl

/-- Mapping rows adds to the events only what is told about the results. -/
theorem mapRows_ok_iff {plan : MappingPlan} {rows : RowSet} {results : List Projected} :
    repository.mapRows plan rows directives e = (.ok results, e') ↔
      Mapping.mapRows repository.schema plan rows = .ok results ∧
        e' = { e with events := e.events ++ plan.told results directives.readOnly } := by
  have hsteps : (repository.mapRows plan rows directives : Run σ _) = (do
      report plan directives
        (← (Mapping.mapRows repository.schema plan rows : Except ReadFault _))) := rfl
  rw [hsteps, bind_ok_iff]
  simp only [reading_ok_iff, report_eq]
  constructor
  · rintro ⟨_, _, ⟨h, rfl⟩, hreport⟩
    cases hreport
    exact ⟨h, rfl⟩
  · rintro ⟨h, rfl⟩
    exact ⟨_, _, ⟨h, rfl⟩, rfl⟩

/-- Fetching results is fetching rows and mapping them. -/
theorem fetchResults_ok_iff {statement : Statement} {plan : MappingPlan} {results : List Projected} :
    repository.fetchResults store statement plan args directives e = (.ok results, e') ↔
      ∃ rows mid, repository.fetchRows store statement args directives e = (.ok rows, mid) ∧
        repository.mapRows plan rows directives mid = (.ok results, e') := by
  unfold fetchResults
  exact bind_ok_iff

/-- Fetching a count is fetching its one row and reading it. -/
theorem fetchCount_ok_iff {name : String} {statement : Statement} {n : Nat} :
    repository.fetchCount store name statement args directives e = (.ok n, e') ↔
      ∃ rows, repository.fetchRows store statement args directives e = (.ok rows, e') ∧
        countOf name rows = .ok n := by
  unfold fetchCount
  simp only [bind_ok_iff, reading_ok_iff]
  constructor
  · rintro ⟨rows, _, hrows, hcount, rfl⟩
    exact ⟨rows, hrows, hcount⟩
  · rintro ⟨rows, hrows, hcount⟩
    exact ⟨rows, e', hrows, hcount, rfl⟩

/-! ### Parts of a result -/

/-- A page comes from a window of the content and from the number of all rows. -/
theorem fetchPage_ok_iff {name : String} {compiled : Compiled} {request : PageRequest}
    {page : Page Projected} :
    repository.fetchPage store name compiled args request directives e = (.ok page, e') ↔
      ∃ count offset window mid, compiled.count = some count ∧ request.offset = .ok offset ∧
        compiled.content.window (some request.size) offset = .ok window ∧
        repository.fetchResults store window compiled.plan args directives e =
          (.ok page.content, mid) ∧
        repository.fetchCount store name count args {} mid = (.ok page.total, e') ∧
        page.request = request := by
  unfold fetchPage
  -- Without a count there is no page.
  cases hcount : compiled.count with
  | none => exact ⟨nofun, fun ⟨_, _, _, _, h, _⟩ => nomatch h⟩
  | some count =>
    simp only [bind_ok_iff, parameter_ok_iff, pure_ok_iff]
    constructor
    · rintro ⟨offset, _, ⟨hoffset, rfl⟩, window, _, ⟨hwindow, rfl⟩, content, mid, hcontent, total, _,
        htotal, rfl, rfl⟩
      exact ⟨count, offset, window, mid, rfl, hoffset, hwindow, hcontent, htotal, rfl⟩
    · rintro ⟨_, offset, window, mid, hsame, hoffset, hwindow, hcontent, htotal, hrequest⟩
      cases hsame
      refine ⟨offset, e, ⟨hoffset, rfl⟩, window, e, ⟨hwindow, rfl⟩, _, mid, hcontent, _, e', htotal,
        ?_, rfl⟩
      rw [← hrequest]

/-- The number of rows that is read for a slice: one more than it holds, as far as words go. -/
def sliceLimit (request : PageRequest) : Nat := min (request.size + 1) (wordLimit - 1)

/-- A slice comes from the first rows of a window that is one row longer. -/
theorem fetchSlice_ok_iff {compiled : Compiled} {request : PageRequest} {slice : Slice Projected} :
    repository.fetchSlice store compiled args request directives e = (.ok slice, e') ↔
      ∃ offset window rows mid, request.offset = .ok offset ∧
        compiled.content.window (some (sliceLimit request)) offset = .ok window ∧
        repository.fetchRows store window args directives e = (.ok rows, mid) ∧
        repository.mapRows compiled.plan (rows.take request.size) directives mid =
          (.ok slice.content, e') ∧
        slice.hasNext = decide (request.size < rows.length) ∧ slice.request = request := by
  unfold fetchSlice
  simp only [bind_ok_iff, parameter_ok_iff, pure_ok_iff]
  constructor
  · rintro ⟨offset, _, ⟨hoffset, rfl⟩, window, _, ⟨hwindow, rfl⟩, rows, mid, hrows, content, _,
      hcontent, rfl, rfl⟩
    exact ⟨offset, window, rows, mid, hoffset, hwindow, hrows, hcontent, rfl, rfl⟩
  · rintro ⟨offset, window, rows, mid, hoffset, hwindow, hrows, hcontent, hnext, hrequest⟩
    refine ⟨offset, e, ⟨hoffset, rfl⟩, window, e, ⟨hwindow, rfl⟩, rows, mid, hrows, _, e', hcontent,
      ?_, rfl⟩
    rw [← hnext, ← hrequest]

end Repository

end EntityQuery
