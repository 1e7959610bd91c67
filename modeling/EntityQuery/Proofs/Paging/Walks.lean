import EntityQuery.Proofs.Paging.Windows

namespace EntityQuery

/-!
# Walks over pages

A caller who wants all results reads the first page, follows it to the next one, and so on until
nothing follows (`Visits`).  Over a store that serves one list of rows such a walk comes to an end
after as many pages as the rows fill (`pageCount`), never fails, and has seen every row once and in
order; the way back visits the same pages (`Repository.walk_covers`).

* `Chained` says what a sequence of envelopes has to do with a way of reading them; the walks in both
  directions come from it alone, by induction on the number of steps (`Chained.ascends`,
  `Chained.descends`).
* `Repository.chained_pages` and `Repository.chained_slices` are its two instances.
-/

variable {σ ε : Type}

/-! ### Walks -/

/-- What a walk sees that reads a request, if there is one, and goes on with the request that
    follows from the envelope.  Every read succeeds. -/
inductive Visits (read : PageRequest → Run σ ε) (follow : ε → Option PageRequest) :
    Option PageRequest → Exchange σ → List ε → Exchange σ → Prop where
  | done {e : Exchange σ} : Visits read follow none e [] e
  | visit {request : PageRequest} {e mid e' : Exchange σ} {envelope : ε} {rest : List ε} :
    read request e = (.ok envelope, mid) → Visits read follow (follow envelope) mid rest e' →
    Visits read follow (some request) e (envelope :: rest) e'

/-- Envelopes that can be read one after the other, up to a last one, and know their neighbours. -/
structure Chained (read : PageRequest → Run σ ε) (next previous : ε → Option PageRequest)
    (request : Nat → PageRequest) (envelope : Nat → ε) (last : Nat) : Prop where
  reads {p : Nat} : p ≤ last → ∀ e, ∃ e', read (request p) e = (.ok (envelope p), e')
  forward {p : Nat} : p < last → next (envelope p) = some (request (p + 1))
  ends : next (envelope last) = none
  backward {p : Nat} : p < last → previous (envelope (p + 1)) = some (request p)
  begins : previous (envelope 0) = none

namespace Chained

variable {read : PageRequest → Run σ ε} {next previous : ε → Option PageRequest}
variable {request : Nat → PageRequest} {envelope : Nat → ε} {last : Nat}

/-- The walk up to the last envelope. -/
theorem ascends (h : Chained read next previous request envelope last) {p steps : Nat}
    (hp : p + steps = last) (e : Exchange σ) :
    ∃ e', Visits read next (some (request p)) e ((List.range' p (steps + 1)).map envelope) e' := by
  induction steps generalizing p e with
  | zero =>
    obtain rfl : p = last := hp
    obtain ⟨e', hread⟩ := h.reads (Nat.le_refl p) e
    refine ⟨e', .visit hread ?_⟩
    -- Nothing comes after the last envelope, so the walk ends with it.
    rw [h.ends]
    exact .done
  | succ steps ih =>
    obtain ⟨mid, hread⟩ := h.reads (p := p) (by omega) e
    obtain ⟨e', hrest⟩ := ih (p := p + 1) (by omega) mid
    refine ⟨e', .visit hread ?_⟩
    rw [h.forward (by omega)]
    exact hrest

/-- The walk down to the first envelope. -/
theorem descends (h : Chained read next previous request envelope last) {p : Nat} (hp : p ≤ last)
    (e : Exchange σ) :
    ∃ e', Visits read previous (previous (envelope p)) e
      ((List.range p).reverse.map envelope) e' := by
  induction p generalizing e with
  | zero =>
    rw [h.begins]
    exact ⟨e, .done⟩
  | succ p ih =>
    obtain ⟨mid, hread⟩ := h.reads (p := p) (by omega) e
    obtain ⟨e', hrest⟩ := ih (by omega) mid
    refine ⟨e', ?_⟩
    rw [h.backward (by omega), List.range_succ, List.reverse_concat, List.map_cons]
    exact .visit hread hrest

end Chained

/-- **A walk that covers some results**: it ends after a number of envelopes which hold the results
    one after the other, and the way back from the last of them visits the others in reverse. -/
def Covers {α : Type} (read : PageRequest → Run σ ε) (next previous : ε → Option PageRequest)
    (content : ε → List α) (first : PageRequest) (number : Nat) (results : List α)
    (e : Exchange σ) : Prop :=
  ∃ envelopes e', Visits read next (some first) e envelopes e' ∧ envelopes.length = number ∧
    envelopes.flatMap content = results ∧
    ∃ last, envelopes.getLast? = some last ∧
      ∀ e, ∃ e', Visits read previous (previous last) e envelopes.dropLast.reverse e'

/-- A chain of envelopes whose contents make up the results covers them, there and back. -/
theorem Chained.covers {α : Type} {read : PageRequest → Run σ ε}
    {next previous : ε → Option PageRequest} {request : Nat → PageRequest} {envelope : Nat → ε}
    {last : Nat} (h : Chained read next previous request envelope last) {content : ε → List α}
    {results : List α}
    (hcontent : (List.range (last + 1)).flatMap (fun p => content (envelope p)) = results)
    (e : Exchange σ) : Covers read next previous content (request 0) (last + 1) results e := by
  obtain ⟨e', hup⟩ := h.ascends (p := 0) (Nat.zero_add last) e
  rw [← List.range_eq_range'] at hup
  refine ⟨_, e', hup, by simp, ?_, envelope last, ?_, fun e => ?_⟩
  · rw [List.flatMap_map]
    exact hcontent
  · simp [List.range_succ]
  · obtain ⟨e', hdown⟩ := h.descends (Nat.le_refl last) e
    refine ⟨e', ?_⟩
    rw [← List.map_dropLast, ← List.map_reverse, List.range_succ, List.dropLast_concat]
    exact hdown

/-! ### The pages of some rows -/

/-- The number of pages that are read for some rows: the pages they fill, and one where there are
    none. -/
def pageCount (rows size : Nat) : Nat := max 1 ((rows + size - 1) / size)

/-- **Another page follows** exactly if a row stands behind this one. -/
theorem succ_lt_pageCount_iff {rows size p : Nat} (hsize : 0 < size) :
    p + 1 < pageCount rows size ↔ p * size + size < rows := by
  have hround : p + 2 ≤ (rows + size - 1) / size ↔ (p + 2) * size ≤ rows + size - 1 :=
    Nat.le_div_iff_mul_le hsize
  have hproduct : (p + 2) * size = p * size + size + size := by
    rw [Nat.add_mul, Nat.two_mul, Nat.add_assoc]
  rw [hproduct] at hround
  unfold pageCount
  omega

/-- The last page begins before the end of the rows. -/
theorem mul_le_of_lt_pageCount {rows size p : Nat} (hsize : 0 < size) (h : p < pageCount rows size) :
    p * size ≤ rows := by
  cases p with
  | zero => simp
  | succ p =>
    have hrows := (succ_lt_pageCount_iff hsize).1 h
    rw [Nat.succ_mul]
    omega

/-- Windows of one size, one after the other, hold what stands before their end. -/
theorem flatMap_windows {α : Type} (results : List α) (size n : Nat) :
    (List.range n).flatMap (fun p => (results.drop (p * size)).take size) =
      results.take (n * size) := by
  induction n with
  | zero => simp
  | succ n ih =>
    rw [List.range_succ, List.flatMap_append, ih, Nat.succ_mul, List.take_add]
    simp

/-- **Pages hold everything once and in order.** -/
theorem flatMap_pages {α : Type} (results : List α) {size : Nat} (hsize : 0 < size) :
    (List.range (pageCount results.length size)).flatMap
      (fun p => (results.drop (p * size)).take size) = results := by
  have hcount : 0 < pageCount results.length size := Nat.lt_of_lt_of_le Nat.zero_lt_one (Nat.le_max_left _ _)
  obtain ⟨last, hlast⟩ := Nat.exists_eq_succ_of_ne_zero (Nat.ne_of_gt hcount)
  have hend : ¬ last * size + size < results.length := by
    rw [← succ_lt_pageCount_iff hsize, hlast]
    exact Nat.lt_irrefl _
  rw [flatMap_windows, hlast, Nat.succ_mul]
  exact List.take_of_length_le (Nat.le_of_not_lt hend)

/-! ### Walks over a served list -/

namespace Repository

variable {repository : Repository} {store : Store σ} {compiled : Compiled} {args : CallArguments}
variable {table : RowSet} {results : List Projected} {directives : Directives}

/-- A served window of the content is answered by its rows. -/
theorem fetchRows_of_serves (repository : Repository) (directives : Directives)
    (hserves : store.Serves compiled args table) {limit offset : Nat}
    (hlimit : limit < signedLimit) (hoffset : offset < signedLimit) (e : Exchange σ) :
    ∃ e', repository.fetchRows store (compiled.content.windowed limit offset) args directives e =
      (.ok (table.window offset limit), e') := by
  obtain ⟨bound, hbound, hanswers⟩ :=
    hserves.window (Statement.window_eq_ok_iff.2 ⟨hlimit, hoffset, rfl⟩)
  have hanswer := hanswers (repository.sending directives) e.state
  exact ⟨_, fetchRows_ok_iff.2 ⟨bound, hbound, Run.fetch_ok_iff.2 ⟨_, Prod.ext hanswer rfl, rfl⟩⟩⟩

/-- A served counting statement is answered by the number of rows. -/
theorem fetchCount_of_serves (repository : Repository) (directives : Directives) (name : String)
    (hserves : store.Serves compiled args table) {count : Statement}
    (hcount : compiled.count = some count) (e : Exchange σ) :
    ∃ e', repository.fetchCount store name count args directives e = (.ok table.length, e') := by
  obtain ⟨bound, hbound, hanswers⟩ := hserves.count hcount
  obtain ⟨answer, hanswer, hcounts⟩ := hanswers (repository.sending directives) e.state
  have hrows : ∃ e', repository.fetchRows store count args directives e = (.ok answer, e') :=
    ⟨_, fetchRows_ok_iff.2 ⟨bound, hbound, Run.fetch_ok_iff.2 ⟨_, Prod.ext hanswer rfl, rfl⟩⟩⟩
  obtain ⟨e', hrows⟩ := hrows
  exact ⟨e', fetchCount_ok_iff.2 ⟨answer, hrows, countOf_eq hcounts⟩⟩

/-- The results of the rows of a window are reported like those of any rows. -/
theorem mapRows_window (directives : Directives)
    (hmaps : Mapping.mapRows repository.schema compiled.plan table = .ok results)
    (offset limit : Nat) (e : Exchange σ) :
    ∃ e', repository.mapRows compiled.plan (table.window offset limit) directives e =
      (.ok ((results.drop offset).take limit), e') :=
  ⟨_, mapRows_ok_iff.2 ⟨Mapping.mapRows_window hmaps offset limit, rfl⟩⟩

/-- The page of a request over a list of results. -/
def pageOf (results : List Projected) (request : PageRequest) : Page Projected where
  content := (results.drop (request.page * request.size)).take request.size
  request
  total := results.length

/-- The slice of a request over a list of results. -/
def sliceOf (results : List Projected) (request : PageRequest) : Slice Projected where
  content := (results.drop (request.page * request.size)).take request.size
  request
  hasNext := decide (request.page * request.size + request.size < results.length)

/-- **A page that begins within the words can be read.** -/
theorem fetchPage_of_serves (hserves : store.Serves compiled args table) {count : Statement}
    (hcount : compiled.count = some count)
    (hmaps : Mapping.mapRows repository.schema compiled.plan table = .ok results)
    {request : PageRequest} (hsize : request.size < signedLimit)
    (hoffset : request.page * request.size < signedLimit) (name : String) (e : Exchange σ) :
    ∃ e', repository.fetchPage store name compiled args request directives e =
      (.ok (pageOf results request), e') := by
  have hlimits : signedLimit < wordLimit := by decide
  obtain ⟨mid, hrows⟩ := fetchRows_of_serves repository directives hserves hsize hoffset e
  obtain ⟨told, hmapped⟩ := mapRows_window directives hmaps _ request.size mid
  obtain ⟨e', htotal⟩ := fetchCount_of_serves repository {} name hserves hcount told
  rw [← Mapping.length_of_mapRows hmaps] at htotal
  exact ⟨e', fetchPage_ok_iff.2 ⟨count, _, _, told, hcount,
    offset_eq_ok_iff.2 ⟨Nat.lt_trans hoffset hlimits, rfl⟩,
    Statement.window_eq_ok_iff.2 ⟨hsize, hoffset, rfl⟩,
    fetchResults_ok_iff.2 ⟨_, mid, hrows, hmapped⟩, htotal, rfl⟩⟩

/-- **A slice that begins within the words can be read**, if there is a word for one row more. -/
theorem fetchSlice_of_serves (hserves : store.Serves compiled args table)
    (hmaps : Mapping.mapRows repository.schema compiled.plan table = .ok results)
    {request : PageRequest} (hsize : request.size + 1 < signedLimit)
    (hoffset : request.page * request.size < signedLimit) (e : Exchange σ) :
    ∃ e', repository.fetchSlice store compiled args request directives e =
      (.ok (sliceOf results request), e') := by
  have hlimits : signedLimit < wordLimit := by decide
  have hlimit : sliceLimit request < signedLimit := by
    unfold sliceLimit
    omega
  obtain ⟨mid, hrows⟩ := fetchRows_of_serves repository directives hserves hlimit hoffset e
  obtain ⟨e', hmapped⟩ := mapRows_window directives hmaps _ request.size mid
  -- One row more than the size is asked for; the row beyond tells whether more follow.
  have hmore : request.size < sliceLimit request := by
    rw [sliceLimit_eq hlimit]
    exact Nat.lt_succ_self _
  rw [← table.take_window (Nat.le_of_lt hmore)] at hmapped
  refine ⟨e', fetchSlice_ok_iff.2 ⟨_, _, _, mid,
    offset_eq_ok_iff.2 ⟨Nat.lt_trans hoffset hlimits, rfl⟩,
    Statement.window_eq_ok_iff.2 ⟨hlimit, hoffset, rfl⟩, hrows, hmapped, ?_, rfl⟩⟩
  rw [sliceOf, decide_eq_decide, Mapping.length_of_mapRows hmaps]
  exact (lt_length_window_iff table hmore).symm

/-! ### Both ways over all pages -/

/-- The request for a page of a walk. -/
def walkRequest (size : Nat) (order : SortOrder) (page : Nat) : PageRequest := ⟨page, size, order⟩

variable {size : Nat} {order : SortOrder}

/-- A page of a walk begins within the words. -/
theorem offset_walkRequest {rows p : Nat} (hsize : 0 < size) (hrows : rows < signedLimit)
    (hp : p < pageCount rows size) :
    (walkRequest size order p).page * (walkRequest size order p).size < signedLimit :=
  Nat.lt_of_le_of_lt (mul_le_of_lt_pageCount hsize hp) hrows

/-- The index of a page that another one follows has a successor. -/
theorem next_walkRequest {rows p : Nat} (hsize : 0 < size) (hrows : rows < signedLimit)
    (hp : p + 1 < pageCount rows size) :
    (walkRequest size order p).next = walkRequest size order (p + 1) := by
  have hlimits : signedLimit < wordLimit := by decide
  have hbehind : p * size + size < rows := (succ_lt_pageCount_iff hsize).1 hp
  have hindex : p ≤ p * size := Nat.le_mul_of_pos_right p hsize
  have hmin : min (p + 1) (wordLimit - 1) = p + 1 := by omega
  simp [walkRequest, PageRequest.next, hmin]

/-- **The pages over a served list are chained.** -/
theorem chained_pages (hserves : store.Serves compiled args table) {count : Statement}
    (hcount : compiled.count = some count)
    (hmaps : Mapping.mapRows repository.schema compiled.plan table = .ok results)
    (hsize : 0 < size) (hword : size < signedLimit) (hrows : table.length < signedLimit)
    (name : String) {last : Nat} (hlast : last + 1 = pageCount results.length size) :
    Chained (fun request => repository.fetchPage store name compiled args request directives)
      Page.next? Page.previous? (walkRequest size order)
      (fun p => pageOf results (walkRequest size order p)) last where
  reads hp e := by
    rw [← Mapping.length_of_mapRows hmaps] at hrows
    exact fetchPage_of_serves hserves hcount hmaps hword
      (offset_walkRequest hsize hrows (by omega)) name e
  forward {p} hp := by
    rw [← Mapping.length_of_mapRows hmaps] at hrows
    have hnext : p + 1 < pageCount results.length size := by omega
    -- Before the last page some result lies beyond the page, which is what its total tells.
    have hmore : (pageOf results (walkRequest size order p)).hasNext = true :=
      (Page.hasNext_iff hsize).2 ((succ_lt_pageCount_iff hsize).1 hnext)
    rw [Page.next?, if_pos hmore]
    exact congrArg some (next_walkRequest hsize hrows hnext)
  ends := by
    have hno : ¬ (pageOf results (walkRequest size order last)).hasNext = true := by
      rw [Page.hasNext_iff hsize]
      show ¬ last * size + size < results.length
      rw [← succ_lt_pageCount_iff hsize]
      omega
    rw [Page.next?, if_neg hno]
  backward _ := rfl
  begins := rfl

/-- **The slices over a served list are chained.** -/
theorem chained_slices (hserves : store.Serves compiled args table)
    (hmaps : Mapping.mapRows repository.schema compiled.plan table = .ok results)
    (hsize : 0 < size) (hword : size + 1 < signedLimit) (hrows : table.length < signedLimit)
    {last : Nat} (hlast : last + 1 = pageCount results.length size) :
    Chained (fun request => repository.fetchSlice store compiled args request directives)
      Slice.next? Slice.previous? (walkRequest size order)
      (fun p => sliceOf results (walkRequest size order p)) last where
  reads hp e := by
    rw [← Mapping.length_of_mapRows hmaps] at hrows
    exact fetchSlice_of_serves hserves hmaps hword (offset_walkRequest hsize hrows (by omega)) e
  forward {p} hp := by
    rw [← Mapping.length_of_mapRows hmaps] at hrows
    have hnext : p + 1 < pageCount results.length size := by omega
    -- Before the last slice the row beyond is there.
    have hmore : (sliceOf results (walkRequest size order p)).hasNext = true :=
      decide_eq_true ((succ_lt_pageCount_iff hsize).1 hnext)
    rw [Slice.next?, if_pos hmore]
    exact congrArg some (next_walkRequest hsize hrows hnext)
  ends := by
    have hno : (sliceOf results (walkRequest size order last)).hasNext = false := by
      refine decide_eq_false ?_
      show ¬ last * size + size < results.length
      rw [← succ_lt_pageCount_iff hsize]
      omega
    rw [Slice.next?, hno]
    rfl
  backward _ := rfl
  begins := rfl

/-- **Walking covers every row exactly once.**  Where the columns suit the target and each row can
    be mapped, the walk from the first page of any size ends after as many pages as the rows fill,
    and after one page where there are none.  No read fails, the pages hold the results of all rows
    in order, and the way back from the last page visits the same pages.  The same holds of
    slices, which need no counting statement. -/
theorem walk_covers (hserves : store.Serves compiled args table)
    (hcolumns : Mapping.checkColumns compiled.plan table.columns = .ok ())
    (hmaps : ∀ row ∈ table.toRows,
      ∃ result, Mapping.readRow repository.schema compiled.plan row = .ok result)
    (hsize : 1 ≤ size) (hword : size + 1 < signedLimit) (hrows : table.length < signedLimit)
    (name : String) (order : SortOrder) (e : Exchange σ) :
    ∃ results, Mapping.mapRows repository.schema compiled.plan table = .ok results ∧
      (compiled.count ≠ none →
        Covers (fun request => repository.fetchPage store name compiled args request directives)
          Page.next? Page.previous? Page.content ⟨0, size, order⟩
          (max 1 ((table.length + size - 1) / size)) results e) ∧
      Covers (fun request => repository.fetchSlice store compiled args request directives)
        Slice.next? Slice.previous? Slice.content ⟨0, size, order⟩
        (max 1 ((table.length + size - 1) / size)) results e := by
  obtain ⟨results, hmapped⟩ : ∃ results,
      Mapping.mapRows repository.schema compiled.plan table = .ok results := by
    obtain ⟨results, hresults, _⟩ :=
      exists_listMapM fun row hrow => (hmaps row hrow).imp fun _ h => ⟨h, trivial⟩
    exact ⟨results, Mapping.mapRows_eq_ok_iff.2 ⟨hcolumns, listMapM_eq_ok_iff.1 hresults⟩⟩
  have hnumber : max 1 ((table.length + size - 1) / size) = pageCount results.length size := by
    rw [Mapping.length_of_mapRows hmapped, pageCount]
  obtain ⟨last, hlast⟩ : ∃ last, last + 1 = pageCount results.length size :=
    ⟨pageCount results.length size - 1, by unfold pageCount; omega⟩
  -- A page and a slice hold the same window, so what follows is said of both at once.
  have hcontent : (List.range (last + 1)).flatMap (fun p => (results.drop (p * size)).take size) =
      results := by
    rw [hlast]
    exact flatMap_pages results hsize
  refine ⟨results, hmapped, fun hcount => ?_, ?_⟩
  · obtain ⟨count, hcount⟩ := Option.ne_none_iff_exists'.1 hcount
    rw [hnumber, ← hlast]
    exact (chained_pages hserves hcount hmapped hsize (Nat.lt_of_succ_lt hword) hrows name
      hlast).covers hcontent e
  · rw [hnumber, ← hlast]
    exact (chained_slices hserves hmapped hsize hword hrows hlast).covers hcontent e

/-- Three members are read in two pages of two. -/
theorem walk_covers_roster :
    ∃ results, Mapping.mapRows Sample.league Sample.rosterQuery.plan Sample.roster = .ok results ∧
      Covers (fun request => Sample.leagueMembers.fetchPage (Store.ofTable Sample.roster) "members"
          Sample.rosterQuery {} request {})
        Page.next? Page.previous? Page.content ⟨0, 2, []⟩ 2 results ⟨(), [], []⟩ ∧
      Covers (fun request => Sample.leagueMembers.fetchSlice (Store.ofTable Sample.roster)
          Sample.rosterQuery {} request {})
        Slice.next? Slice.previous? Slice.content ⟨0, 2, []⟩ 2 results ⟨(), [], []⟩ := by
  have hmaps : ∀ row ∈ Sample.roster.toRows,
      ∃ result, Mapping.readRow Sample.league Sample.rosterQuery.plan row = .ok result := by
    -- Each of the three members is read.
    intro row hrow
    simp only [Sample.roster, RowSet.toRows, List.map_cons, List.map_nil, List.mem_cons,
      List.not_mem_nil, or_false] at hrow
    rcases hrow with rfl | rfl | rfl <;> exact ⟨_, rfl⟩
  have hserves : (Store.ofTable Sample.roster).Serves Sample.rosterQuery {} Sample.roster :=
    Store.ofTable_serves rfl rfl (by decide)
  obtain ⟨results, hresults, hpages, hslices⟩ :=
    @walk_covers Unit Sample.leagueMembers _ _ _ _ {} 2 hserves rfl hmaps (by decide) (by decide)
      (by decide) "members" [] ⟨(), [], []⟩
  exact ⟨results, hresults, hpages (Option.some_ne_none _), hslices⟩

end Repository

/-! ### Columns that do not suit -/

namespace Sample

/-- Nobody is a member. -/
def emptyRoster : RowSet := ⟨["id", "age", "@team"], []⟩

/-- Members by a name that no column has. -/
def nicknames : Compiled :=
  { rosterQuery with plan := { target := .constructor ⟨"Nickname", ["nickname"]⟩ } }

end Sample

/-- Without a row all rows can be mapped, but where a parameter of a constructor has no column even
    the empty first page cannot be read. -/
theorem Repository.no_walk_of_unnamed_parameter :
    (Store.ofTable Sample.emptyRoster).Serves Sample.nicknames {} Sample.emptyRoster ∧
      Sample.nicknames.count ≠ none ∧
      (∀ row ∈ Sample.emptyRoster.toRows,
        ∃ result, Mapping.readRow Sample.league Sample.nicknames.plan row = .ok result) ∧
      ¬ ∃ pages e, Visits (fun request => Sample.leagueMembers.fetchPage
          (Store.ofTable Sample.emptyRoster) "members" Sample.nicknames {} request {})
        Page.next? (some ⟨0, 1, []⟩) ⟨(), [], []⟩ pages e := by
  refine ⟨Store.ofTable_serves rfl rfl (by decide), nofun, nofun, ?_⟩
  rintro ⟨pages, e, hwalk⟩
  cases hwalk with
  | visit hread _ => cases hread

end EntityQuery
