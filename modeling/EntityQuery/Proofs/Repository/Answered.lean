import EntityQuery.Proofs.Repository.Deferred

namespace EntityQuery

/-!
# Calls that return results

A call in one of four shapes returns results (`Shape.givesResults`).  Read backwards from its success,
it found its definition, compiled it, sent a window of the content and mapped the first of the rows that
came back (`Repository.exists_answer_of_call`).  What was compiled is the select of the query that was
prepared, with the target of the call and with its order behind the own one
(`Repository.exists_select_of_compiledFor`).
-/

variable {σ : Type}

/-- The shapes of calls that return results of rows. -/
def Shape.givesResults : Shape → Bool
  | .single | .list | .page | .slice => true
  | .count | .existence | .bulk => false

/-- The results in a response. -/
def Response.results : Response → List Received
  | .one result => result.toList
  | .list results => results
  | .page part => part.content
  | .slice part => part.content
  | .count _ | .existence _ | .change _ => []

/-- Nothing is cut off rows that are few enough. -/
theorem RowSet.take_of_length_le (rows : RowSet) {n : Nat} (h : rows.length ≤ n) :
    rows.take n = rows := by
  simp only [take, List.take_of_length_le (show rows.rows.length ≤ n from h)]

/-- A query for results is answered with the content of its select. -/
theorem Select.content_of_givesResults (s : Select) {q : Query} (h : q.shape.givesResults = true) :
    (s.compiled q).content = s.content := by
  unfold compiled
  cases hq : q.shape <;> first | rfl | (rw [hq] at h; cases h)

namespace Repository

open Run

variable {repository : Repository} {store : Store σ} {name : String} {args : CallArguments}
variable {expected : Expected} {shape : Shape} {e e' : Exchange σ} {response : Response}
variable {d : Definition} {compiled : Compiled}

/-- The store answered a window of a statement with these rows. -/
def Fetches (repository : Repository) (store : Store σ) (args : CallArguments) (content : Statement)
    (e : Exchange σ) (rows : RowSet) : Prop :=
  ∃ limit offset window directives mid, content.window limit offset = .ok window ∧
    repository.fetchRows store window args directives e = (.ok rows, mid)

/-- The rows that results were mapped from are the first ones of those that came back. -/
def Maps (repository : Repository) (plan : MappingPlan) (rows : RowSet) (expected : Expected)
    (received : List Received) : Prop :=
  ∃ results, Mapping.mapRows repository.schema plan (rows.take received.length) = .ok results ∧
    List.Forall₂ (fun result r => Received.ofProjected expected result = .ok r) results received

/-! ### Calls -/

/-- Results of all rows, as the caller gets them. -/
theorem maps_of_mapRows {plan : MappingPlan} {rows : RowSet} {n : Nat} {results : List Projected}
    {received : List Received}
    (h : Mapping.mapRows repository.schema plan (rows.take n) = .ok results)
    (hreceived : results.mapM (Received.ofProjected expected) = .ok received) :
    repository.Maps plan rows expected received := by
  have hall := listMapM_eq_ok_iff.1 hreceived
  refine ⟨results, ?_, hall⟩
  -- As many rows were mapped as there are results.
  have hlength : received.length = (rows.take n).length := by
    rw [← hall.length_eq, Mapping.length_of_mapRows h]
  have htake : rows.take received.length = rows.take n := by
    simp only [RowSet.take, RowSet.length] at hlength ⊢
    rw [hlength, List.length_take, ← List.take_eq_take_min]
  rw [htake, h]

/-- The same where all rows are mapped. -/
theorem fetches_of_fetchResults {content window : Statement} {limit : Option Nat} {offset : Nat}
    {plan : MappingPlan} {directives : Directives} {results : List Projected}
    {received : List Received} {mid : Exchange σ} (hwindow : content.window limit offset = .ok window)
    (h : repository.fetchResults store window plan args directives e = (.ok results, mid))
    (hreceived : results.mapM (Received.ofProjected expected) = .ok received) :
    ∃ rows, repository.Fetches store args content e rows ∧
      repository.Maps plan rows expected received ∧ received.length = rows.length := by
  obtain ⟨rows, between, hrows, hmaps⟩ := fetchResults_ok_iff.1 h
  have hmapped := (mapRows_ok_iff.1 hmaps).1
  have hlength : received.length = rows.length := by
    rw [← (listMapM_eq_ok_iff.1 hreceived).length_eq, Mapping.length_of_mapRows hmapped]
  rw [← rows.take_of_length_le (Nat.le_refl _)] at hmapped
  exact ⟨rows, ⟨limit, offset, window, directives, between, hwindow, hrows⟩,
    maps_of_mapRows hmapped hreceived, hlength⟩

/-- **A call that returned results**, step by step: its definition, what was compiled for it, the rows
    that came back, and what they were mapped to.  Only a slice may leave out a row. -/
theorem exists_answer_of_call (hshape : shape.givesResults = true)
    (h : repository.call store name args expected shape e = (.ok response, e')) :
    ∃ d compiled rows, repository.definition name shape = .ok d ∧
      repository.compiledFor name d args = .ok compiled ∧
      repository.Fetches store args compiled.content e rows ∧
      repository.Maps compiled.plan rows expected response.results ∧
      (shape ≠ .slice → response.results.length = rows.length) := by
  cases shape with
  | count | existence | bulk => cases hshape
  | list =>
    simp only [call, list, bind_ok_iff, error_ok_iff, parameter_ok_iff, reading_ok_iff,
      pure_ok_iff] at h
    obtain ⟨received, _, ⟨⟨d, compiled⟩, _, ⟨hselect, rfl⟩, window, _, ⟨hwindow, rfl⟩, results, mid,
      hresults, hreceived, rfl⟩, rfl, rfl⟩ := h
    obtain ⟨hd, hcompiled⟩ := select_ok_iff.1 hselect
    obtain ⟨rows, hfetches, hmaps, hall⟩ := fetches_of_fetchResults hwindow hresults hreceived
    exact ⟨d, compiled, rows, hd, hcompiled, hfetches, hmaps, fun _ => hall⟩
  | single =>
    simp only [call, one, fetchSingle, bind_ok_iff, error_ok_iff, parameter_ok_iff, reading_ok_iff,
      pure_ok_iff] at h
    obtain ⟨received, _, ⟨⟨d, compiled⟩, _, ⟨hselect, rfl⟩, window, _, ⟨hwindow, rfl⟩, result, _,
      ⟨results, mid, hresults, hone⟩, hresult, rfl⟩, rfl, rfl⟩ := h
    have hreceived : results.mapM (Received.ofProjected expected) = .ok received.toList := by
      -- At most one row came back.
      split at hone
      · obtain ⟨rfl, _⟩ := pure_ok_iff.1 hone
        cases hresult
        rfl
      · obtain ⟨rfl, _⟩ := pure_ok_iff.1 hone
        rcases mapM_eq_ok_iff.1 hresult with ⟨hnone, _⟩ | ⟨_, r, hsome, rfl, hr⟩
        · cases hnone
        · cases hsome
          exact listMapM_eq_ok_iff.2 (.cons hr .nil)
      · cases hone
    obtain ⟨hd, hcompiled⟩ := select_ok_iff.1 hselect
    obtain ⟨rows, hfetches, hmaps, hall⟩ := fetches_of_fetchResults hwindow hresults hreceived
    exact ⟨d, compiled, rows, hd, hcompiled, hfetches, hmaps, fun _ => hall⟩
  | page =>
    simp only [call, page, bind_ok_iff, error_ok_iff, fetchPage_ok_iff, reading_ok_iff,
      pure_ok_iff] at h
    obtain ⟨received, _, ⟨d, _, ⟨hd, rfl⟩, request, _, ⟨_, rfl⟩, compiled, _, ⟨hcompiled, rfl⟩, part, _,
      ⟨_, offset, window, mid, _, _, hwindow, hresults, _⟩, hpart, rfl⟩, rfl, rfl⟩ := h
    obtain ⟨content, hcontent, hpart⟩ := bind_eq_ok_iff.1 hpart
    cases hpart
    obtain ⟨rows, hfetches, hmaps, hall⟩ := fetches_of_fetchResults hwindow hresults hcontent
    exact ⟨d, compiled, rows, hd, hcompiled, hfetches, hmaps, fun _ => hall⟩
  | slice =>
    simp only [call, slice, bind_ok_iff, error_ok_iff, fetchSlice_ok_iff, mapRows_ok_iff,
      reading_ok_iff, pure_ok_iff] at h
    obtain ⟨received, _, ⟨d, _, ⟨hd, rfl⟩, request, _, ⟨_, rfl⟩, compiled, _, ⟨hcompiled, rfl⟩, part, _,
      ⟨offset, window, rows, mid, _, hwindow, hrows, ⟨hresults, _⟩, _⟩, hpart, rfl⟩, rfl, rfl⟩ := h
    obtain ⟨content, hcontent, hpart⟩ := bind_eq_ok_iff.1 hpart
    cases hpart
    exact ⟨d, compiled, rows, hd, hcompiled, ⟨_, offset, window, _, mid, hwindow, hrows⟩,
      maps_of_mapRows hresults hcontent, fun hslice => absurd rfl hslice⟩

/-! ### Compiled selects -/

section Compiled

variable {q : Query} {count : Option Statement}

/-- The content of what is compiled for results is that of its select. -/
theorem exists_select_of_compiledFor
    (hprepared : MethodDeclaration.prepareSelect repository.schema q count = .ok d.prepared)
    (hshape : q.shape.givesResults = true) (h : repository.compiledFor name d args = .ok compiled) :
    ∃ target s, q.target.resolve args.target = .ok target ∧
      Select.ofQuery repository.schema ((q.withTarget target).sortedBy args.fullOrder) = .ok s ∧
      compiled.content = s.content ∧
      compiled.plan =
        { target, entity := some s.root, fetched := s.list.fetched, types := s.list.types } := by
  obtain ⟨target, c, htarget, hc, rfl⟩ :=
    exists_compile_of_compiledFor (.of_prepareSelect hprepared) h
  obtain ⟨s, hs, hc⟩ := bind_eq_ok_iff.1 hc
  cases hc
  exact ⟨target, s, htarget, hs, Select.content_of_givesResults s hshape, rfl⟩

end Compiled

end Repository

/-! ### Declared methods -/

namespace MethodDeclaration

variable {schema : Schema} {root : Entity} {m : MethodDeclaration} {d : Definition}

/-- What is prepared of a select template. -/
theorem exists_query_of_template {text : String} {t : SelectTemplate} (hsource : m.source = .template text)
    (hparse : Template.parse schema text = .ok (.select t)) (h : m.prepare schema root = .ok d) :
    ∃ q count, prepareSelect schema q count = .ok d.prepared ∧ q.entity = t.entity ∧
      q.shape = d.shape ∧ templateTarget t m.target = .ok (q.selections, q.target) := by
  rw [prepare_eq, hsource] at h
  obtain ⟨⟨shape, prepared⟩, hprepare, h⟩ := bind_eq_ok_iff.1 h
  cases h
  rcases prepareTemplate_cases hprepare with
    ⟨b, _, hfound, _⟩ | ⟨t', count, q, hfound, _, _, hentity, hqshape, _, htarget, hprepared⟩
  · cases hparse.symm.trans hfound
  · cases hparse.symm.trans hfound
    exact ⟨q, count, hprepared, hentity, hqshape, htarget⟩

/-- What is prepared of a method that is described by its name, and that is no change. -/
theorem exists_query_of_derived (hsource : m.source = .derived) (h : m.prepare schema root = .ok d)
    (hshape : d.shape ≠ .bulk) :
    ∃ q, prepareSelect schema q none = .ok d.prepared ∧ q.entity = root ∧ q.shape = d.shape ∧
      q.selections = [] ∧ q.target = m.target := by
  rw [prepare_eq, hsource] at h
  obtain ⟨⟨shape, prepared⟩, hprepare, h⟩ := bind_eq_ok_iff.1 h
  cases h
  rcases prepareDerived_cases hprepare with
    ⟨hbulk, _⟩ | ⟨_, q, hentity, hqshape, hselections, htarget, hprepared⟩
  · exact absurd hbulk hshape
  · exact ⟨q, hprepared, hentity, hqshape, hselections, htarget⟩

end MethodDeclaration

end EntityQuery
