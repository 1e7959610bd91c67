import EntityQuery.Proofs.Repository.Running
import EntityQuery.Proofs.Result.Mapped
import EntityQuery.Proofs.Schema.Resolved

namespace EntityQuery

/-!
# Windows of a result

A store that keeps one list of rows for a query (`Store.Keeps`) answers the content with the rows of
the window that was asked for, and the counting statement with the number of all rows.  Over such a
store a page and a slice for the same request are two ways to the same answer
(`Repository.page_slice_agree`):

* the page rounds a quotient up to find the number of pages, the slice looks at one row more than it
  holds, and both ask whether a row stands behind the last one of the request (`Page.hasNext_iff`);
* what is mapped, and hence what is told about the records, are the rows of the request alone.
-/

variable {σ : Type}

/-- The first cell of an answer holds the number. -/
def RowSet.Counts (answer : RowSet) (n : Nat) : Prop :=
  ∃ k : Int64, answer.rows.head?.bind List.head? = some (.integer k) ∧ k.toInt = n

/-- **A store that keeps a list of rows** for a query and the arguments of a call: whenever it
    answers a window of the content, the answer are the rows of that window, and whenever it answers
    the counting statement, the answer is the number of rows. -/
structure Store.Keeps (store : Store σ) (compiled : Compiled) (args : CallArguments)
    (table : RowSet) : Prop where
  window {limit offset : Nat} {statement : Statement} {bound : Bound} {directives : Directives}
    {state state' : σ} {answer : RowSet} :
    compiled.content.window (some limit) offset = .ok statement →
    statement.bind args.lookup = .ok bound →
    store.fetch bound directives state = (.ok answer, state') → answer = table.window offset limit
  count {statement : Statement} {bound : Bound} {directives : Directives} {state state' : σ}
    {answer : RowSet} :
    compiled.count = some statement → statement.bind args.lookup = .ok bound →
    store.fetch bound directives state = (.ok answer, state') → answer.Counts table.length

/-- **A store that serves a list of rows** keeps it and never fails to answer. -/
structure Store.Serves (store : Store σ) (compiled : Compiled) (args : CallArguments)
    (table : RowSet) : Prop where
  window {limit offset : Nat} {statement : Statement} :
    compiled.content.window (some limit) offset = .ok statement →
    ∃ bound, statement.bind args.lookup = .ok bound ∧
      ∀ directives state, (store.fetch bound directives state).1 = .ok (table.window offset limit)
  count {statement : Statement} : compiled.count = some statement →
    ∃ bound, statement.bind args.lookup = .ok bound ∧
      ∀ directives state, ∃ answer, (store.fetch bound directives state).1 = .ok answer ∧
        answer.Counts table.length

/-- A store that answers each window and each count of a list keeps that list. -/
theorem Store.Serves.keeps {store : Store σ} {compiled : Compiled} {args : CallArguments}
    {table : RowSet} (h : store.Serves compiled args table) : store.Keeps compiled args table where
  window hwindow hbound hfetch := by
    obtain ⟨_, hbound', hanswers⟩ := h.window hwindow
    obtain rfl := Except.ok.inj (hbound.symm.trans hbound')
    have hanswer := congrArg Prod.fst hfetch
    rw [hanswers] at hanswer
    exact (Except.ok.inj hanswer).symm
  count hcount hbound hfetch := by
    obtain ⟨_, hbound', hanswers⟩ := h.count hcount
    obtain rfl := Except.ok.inj (hbound.symm.trans hbound')
    -- A count may be answered in many ways, all of which tell the same number.
    obtain ⟨answer, hanswer, hcounts⟩ := hanswers _ _
    rw [congrArg Prod.fst hfetch] at hanswer
    obtain rfl := Except.ok.inj hanswer
    exact hcounts

/-! ### Limits of windows -/

/-- A number of rows is a signed word below the limit of those. -/
theorem signedWord?_natCast (n : Nat) :
    signedWord? n = if n < signedLimit then some (Int64.ofInt n) else none := by
  unfold signedWord?
  generalize signedLimit = limit
  by_cases h : n < limit
  · rw [if_pos h, if_pos (by omega)]
  · rw [if_neg h, if_neg (by omega)]

namespace Statement

/-- A bound of a window, with its fault written out. -/
theorem windowBound_eq : windowBound = fun (rows : Nat) =>
    (signedWord? rows).elim (.error (.windowTooLarge rows)) fun n => .ok (.value (.integer n)) := by
  -- The definition is opened before it is applied: where its argument is a variable, comparing the
  -- two sides would count up to the limit of words.
  delta windowBound
  funext rows
  cases signedWord? rows <;> rfl

/-- A number of rows in a statement. -/
def rowsFragment (rows : Nat) : Fragment := .value (.integer (Int64.ofInt rows))

/-- A bound is written exactly if it is a signed word. -/
theorem windowBound_eq_ok_iff {rows : Nat} {f : Fragment} :
    windowBound rows = .ok f ↔ rows < signedLimit ∧ f = rowsFragment rows := by
  rw [windowBound_eq]
  beta_reduce
  rw [signedWord?_natCast]
  by_cases h : rows < signedLimit
  · simp [h, rowsFragment, eq_comm]
  · simp [h]

/-- The statement for a window whose bounds fit into words. -/
def windowed (s : Statement) (limit offset : Nat) : Statement :=
  let limited := (s.pushSql " LIMIT ").push (rowsFragment limit)
  if 0 < offset then (limited.pushSql " OFFSET ").push (rowsFragment offset) else limited

/-- **A window can be asked for** exactly if both its bounds fit into words with a sign. -/
theorem window_eq_ok_iff {s w : Statement} {limit offset : Nat} :
    s.window (some limit) offset = .ok w ↔
      limit < signedLimit ∧ offset < signedLimit ∧ w = s.windowed limit offset := by
  have hzero : 0 < signedLimit := by decide
  unfold window windowed
  by_cases hoffset : 0 < offset
  · simp only [if_pos hoffset, bind_eq_ok_iff, windowBound_eq_ok_iff, pure_eq_ok_iff]
    -- With rows to skip there are two bounds, and each has to be a word.
    constructor
    · rintro ⟨_, ⟨hlimit, rfl⟩, _, ⟨hoffset, rfl⟩, rfl⟩
      exact ⟨hlimit, hoffset, rfl⟩
    · rintro ⟨hlimit, hoffset, rfl⟩
      exact ⟨_, ⟨hlimit, rfl⟩, _, ⟨hoffset, rfl⟩, rfl⟩
  · -- Without rows to skip there is no second bound.
    obtain rfl : offset = 0 := by omega
    simp only [if_neg hoffset, bind_eq_ok_iff, windowBound_eq_ok_iff, pure_eq_ok_iff]
    constructor
    · rintro ⟨_, ⟨hlimit, rfl⟩, rfl⟩
      exact ⟨hlimit, hzero, rfl⟩
    · rintro ⟨hlimit, _, rfl⟩
      exact ⟨_, ⟨hlimit, rfl⟩, rfl⟩

end Statement

/-- The rows to skip are counted in words, which a page too far on does not fit. -/
theorem offset_eq_ok_iff {request : PageRequest} {offset : Nat} :
    request.offset = .ok offset ↔
      request.page * request.size < wordLimit ∧ offset = request.page * request.size := by
  unfold PageRequest.offset
  split
  · rename_i h
    simp [h, eq_comm]
  · rename_i h
    simp [h]

/-! ### Whether more follows -/

/-- **More follows a page** exactly if there is a row behind the last one of its request. -/
theorem Page.hasNext_iff {α : Type} {page : Page α} (h : 0 < page.request.size) :
    page.hasNext = true ↔ page.request.page * page.request.size + page.request.size < page.total := by
  have hround : page.request.page + 2 ≤ page.pages ↔
      (page.request.page + 2) * page.request.size ≤ page.total + page.request.size - 1 :=
    Nat.le_div_iff_mul_le h
  have hproduct : (page.request.page + 2) * page.request.size =
      page.request.page * page.request.size + page.request.size + page.request.size := by
    rw [Nat.add_mul, Nat.two_mul, Nat.add_assoc]
  rw [hproduct] at hround
  unfold hasNext
  rw [decide_eq_true_eq]
  omega

/-- One row more than the request holds is read exactly if there is one. -/
theorem lt_length_window_iff (table : RowSet) {offset size limit : Nat} (h : size < limit) :
    size < (table.window offset limit).length ↔ offset + size < table.length := by
  rw [table.length_window]
  omega

namespace Repository

/-- A window of the greatest size is refused, so the limit of a slice that can be read is not cut
    off. -/
theorem sliceLimit_eq {request : PageRequest} (h : sliceLimit request < signedLimit) :
    sliceLimit request = request.size + 1 := by
  have hlimits : signedLimit < wordLimit := by decide
  unfold sliceLimit at *
  omega

variable {repository : Repository} {store : Store σ} {compiled : Compiled} {args : CallArguments}
variable {table : RowSet} {request : PageRequest} {directives : Directives} {e e' : Exchange σ}

/-- An answer that counts is read as its number. -/
theorem countOf_eq {name : String} {answer : RowSet} {n : Nat} (h : answer.Counts n) :
    countOf name answer = .ok n := by
  obtain ⟨k, hcell, hk⟩ := h
  have hnonneg : ¬ k < 0 := by
    rw [Int64.lt_iff_toInt_lt, hk]
    simp
  simp [countOf, hcell, Value.asInteger?, hnonneg, hk]

/-- The rows that come back for a window of a store that keeps a table. -/
theorem fetchRows_window (hstore : store.Keeps compiled args table) {limit offset : Nat}
    {window : Statement} {rows : RowSet}
    (hwindow : compiled.content.window (some limit) offset = .ok window)
    (h : repository.fetchRows store window args directives e = (.ok rows, e')) :
    rows = table.window offset limit := by
  obtain ⟨bound, hbound, hfetch⟩ := fetchRows_ok_iff.1 h
  obtain ⟨state, hanswer, _⟩ := Run.fetch_ok_iff.1 hfetch
  exact hstore.window hwindow hbound hanswer

/-- **What a page is**: the mapped rows of its window, with the number of all rows. -/
theorem page_of_fetchPage (hstore : store.Keeps compiled args table) {name : String}
    {page : Page Projected}
    (h : repository.fetchPage store name compiled args request directives e = (.ok page, e')) :
    page.request = request ∧ page.total = table.length ∧
      Mapping.mapRows repository.schema compiled.plan
        (table.window (request.page * request.size) request.size) = .ok page.content ∧
      e'.events = e.events ++ compiled.plan.told page.content directives.readOnly := by
  obtain ⟨count, offset, window, mid, hcount, hoffset, hwindow, hresults, htotal, hrequest⟩ :=
    fetchPage_ok_iff.1 h
  -- The store answers the window with that part of its list, and the count with the list's length.
  obtain ⟨_, rfl⟩ := offset_eq_ok_iff.1 hoffset
  obtain ⟨rows, first, hrows, hmapped⟩ := fetchResults_ok_iff.1 hresults
  obtain ⟨hmap, rfl⟩ := mapRows_ok_iff.1 hmapped
  obtain ⟨answer, hanswer, hcounted⟩ := fetchCount_ok_iff.1 htotal
  have hlength : answer.Counts table.length := by
    obtain ⟨bound, hbound, hfetch⟩ := fetchRows_ok_iff.1 hanswer
    obtain ⟨state, hstate, _⟩ := Run.fetch_ok_iff.1 hfetch
    exact hstore.count hcount hbound hstate
  rw [countOf_eq hlength] at hcounted
  refine ⟨hrequest, (Except.ok.inj hcounted).symm, ?_, ?_⟩
  · rw [← fetchRows_window hstore hwindow hrows]
    exact hmap
  · -- Counting tells nothing, so the events are those of the content.
    rw [events_fetchRows hanswer]
    show first.events ++ _ = _
    rw [events_fetchRows hrows]

/-- **What a slice is**: the mapped rows of the same window, and whether a row stands behind them. -/
theorem slice_of_fetchSlice (hstore : store.Keeps compiled args table) {slice : Slice Projected}
    (h : repository.fetchSlice store compiled args request directives e = (.ok slice, e')) :
    slice.request = request ∧
      slice.hasNext =
        decide (request.page * request.size + request.size < table.length) ∧
      Mapping.mapRows repository.schema compiled.plan
        (table.window (request.page * request.size) request.size) = .ok slice.content ∧
      e'.events = e.events ++ compiled.plan.told slice.content directives.readOnly := by
  obtain ⟨offset, window, rows, mid, hoffset, hwindow, hrows, hmapped, hnext, hrequest⟩ :=
    fetchSlice_ok_iff.1 h
  obtain ⟨_, rfl⟩ := offset_eq_ok_iff.1 hoffset
  obtain ⟨hmap, rfl⟩ := mapRows_ok_iff.1 hmapped
  obtain rfl := fetchRows_window hstore hwindow hrows
  -- One row more than the size was asked for; it is dropped before the rows are mapped.
  rw [sliceLimit_eq (Statement.window_eq_ok_iff.1 hwindow).1] at hnext hmap
  rw [table.take_window (Nat.le_succ _)] at hmap
  refine ⟨hrequest, ?_, hmap, ?_⟩
  · rw [hnext, decide_eq_decide]
    exact lt_length_window_iff table (Nat.lt_succ_self _)
  · show mid.events ++ _ = _
    rw [events_fetchRows hrows]

/-- **A page and a slice agree.**  Where both can be read for a request, they hold the same results,
    no more than the request asks for, the same follows, and the owner of the records in memory is
    told of the same identifiers: those of the results, and never of the row that a slice reads in
    addition. -/
theorem page_slice_agree (hstore : store.Keeps compiled args table) (hsize : 0 < request.size)
    {name : String} {e₁ e₁' e₂ e₂' : Exchange σ} {page : Page Projected} {slice : Slice Projected}
    (hpage : repository.fetchPage store name compiled args request directives e₁ = (.ok page, e₁'))
    (hslice : repository.fetchSlice store compiled args request directives e₂ = (.ok slice, e₂')) :
    page.content = slice.content ∧ page.hasNext = slice.hasNext ∧ page.next? = slice.next? ∧
      slice.content.length ≤ request.size ∧
      ∃ told, e₁'.events = e₁.events ++ told ∧ e₂'.events = e₂.events ++ told ∧
        ∀ event ∈ told, ∃ entity,
          event = .loaded entity (slice.content.filterMap Projected.id?) directives.readOnly := by
  obtain ⟨hrequest, htotal, hmapped, hevents⟩ := page_of_fetchPage hstore hpage
  obtain ⟨hrequest', hmore, hmapped', hevents'⟩ := slice_of_fetchSlice hstore hslice
  -- Both read the same window of one list, so mapping it can only give one content.
  have hcontent : page.content = slice.content := Except.ok.inj (hmapped.symm.trans hmapped')
  have hnext : page.hasNext = slice.hasNext := by
    rw [hmore, Bool.eq_iff_iff, decide_eq_true_eq, ← hrequest, ← htotal]
    exact Page.hasNext_iff (hrequest ▸ hsize)
  refine ⟨hcontent, hnext, ?_, ?_, _, hevents, hcontent ▸ hevents', ?_⟩
  · unfold Page.next? Slice.next?
    rw [hnext, hrequest, hrequest']
  · rw [Mapping.length_of_mapRows hmapped', RowSet.length_window]
    exact Nat.min_le_left _ _
  · intro event hevent
    rw [hcontent] at hevent
    exact compiled.plan.eq_loaded_of_mem_told hevent

end Repository

/-! ### A store with one table -/

/-- A store that knows one table only.  What it is asked for is told by the values of the statement:
    the number of rows without any, and a window by its bounds. -/
def Store.ofTable (table : RowSet) : Store Unit where
  fetch statement _ state :=
    let answer := match statement.values with
      | [] => .ok ⟨["count"], [[.integer (Int64.ofInt table.length)]]⟩
      | [.integer limit] => .ok (table.window 0 limit.toNatClampNeg)
      | [.integer limit, .integer offset] =>
        .ok (table.window offset.toNatClampNeg limit.toNatClampNeg)
      | _ => .error (.parameter (.noValue ⟨0, none⟩ 0 0))
    (answer, state)
  execute _ _ state := (.ok 0, state)

/-- A number that is a signed word is kept by becoming one. -/
theorem toInt_ofInt_natCast {n : Nat} (h : n < signedLimit) : (Int64.ofInt n).toInt = n :=
  Int64.toInt_ofInt_of_le (by omega) (by exact_mod_cast h)

/-- And it is read back from the word. -/
theorem toNatClampNeg_ofInt_natCast {n : Nat} (h : n < signedLimit) :
    (Int64.ofInt n).toNatClampNeg = n := by
  rw [Int64.toNatClampNeg, toInt_ofInt_natCast h, Int.toNat_natCast]

/-- A window of a statement without values is answered with the rows of that window. -/
theorem Store.window_ofTable {content window : Statement} {text : String} {limit offset : Nat}
    (hcontent : content = ⟨[.sql text]⟩) (hwindow : content.window (some limit) offset = .ok window)
    (args : CallArguments) (table : RowSet) :
    ∃ bound, window.bind args.lookup = .ok bound ∧ ∀ directives state,
      ((Store.ofTable table).fetch bound directives state).1 = .ok (table.window offset limit) := by
  obtain ⟨hlimit, hoffset, rfl⟩ := Statement.window_eq_ok_iff.1 hwindow
  rw [hcontent, Statement.windowed]
  split
  · refine ⟨_, rfl, fun _ _ => ?_⟩
    simp [ofTable, toNatClampNeg_ofInt_natCast hlimit, toNatClampNeg_ofInt_natCast hoffset]
  -- Without rows to skip the statement has no second bound, and the table reads none.
  · rename_i hzero
    obtain rfl := Nat.eq_zero_of_not_pos hzero
    refine ⟨_, rfl, fun _ _ => ?_⟩
    simp [ofTable, toNatClampNeg_ofInt_natCast hlimit]

/-- A store that keeps one table serves its content and its count. -/
theorem Store.ofTable_serves {compiled : Compiled} {args : CallArguments} {table : RowSet}
    {content count : String} (hcontent : compiled.content = ⟨[.sql content]⟩)
    (hcount : compiled.count = some ⟨[.sql count]⟩) (htable : table.length < signedLimit) :
    (Store.ofTable table).Serves compiled args table where
  window hwindow := Store.window_ofTable hcontent hwindow args table
  count hsome := by
    rw [hcount] at hsome
    cases hsome
    exact ⟨_, rfl, fun _ _ => ⟨_, rfl, _, rfl, toInt_ofInt_natCast htable⟩⟩

namespace Sample

/-- Three members under the labels of a select over them. -/
def roster : RowSet :=
  ⟨["id", "age", "@team"], [[.integer 1, .integer 30, .integer 7], [.integer 2, .integer 41, .null],
    [.integer 3, .null, .integer 7]]⟩

/-- Members page by page. -/
def rosterQuery : Compiled where
  content := ⟨[.sql "SELECT * FROM member ORDER BY member_id"]⟩
  count := some ⟨[.sql "SELECT COUNT(*) FROM member"]⟩
  plan := { target := .entity, entity := some member }
  limit := none

/-- The repository of the members of a league, without queries of its own. -/
def leagueMembers : Repository where
  schema := league
  entity := member
  paging := {}
  unit := 0
  definitions := []

end Sample

/-- The second page and the second slice of three members, two at a time. -/
theorem Repository.page_slice_agree_roster :
    ∃ page slice e₁ e₂,
      Sample.leagueMembers.fetchPage (Store.ofTable Sample.roster) "members" Sample.rosterQuery {}
        ⟨1, 2, []⟩ {} ⟨(), [], []⟩ = (.ok page, e₁) ∧
      Sample.leagueMembers.fetchSlice (Store.ofTable Sample.roster) Sample.rosterQuery {}
        ⟨1, 2, []⟩ {} ⟨(), [], []⟩ = (.ok slice, e₂) ∧
      page.content = slice.content ∧ page.hasNext = slice.hasNext ∧ page.next? = slice.next? ∧
      slice.content.length ≤ 2 ∧
      ∃ told, e₁.events = told ∧ e₂.events = told ∧ ∀ event ∈ told, ∃ entity,
        event = .loaded entity (slice.content.filterMap Projected.id?) false := by
  have hpage : ∃ page e, Sample.leagueMembers.fetchPage (Store.ofTable Sample.roster) "members"
      Sample.rosterQuery {} ⟨1, 2, []⟩ {} ⟨(), [], []⟩ = (.ok page, e) := ⟨_, _, rfl⟩
  have hslice : ∃ slice e, Sample.leagueMembers.fetchSlice (Store.ofTable Sample.roster)
      Sample.rosterQuery {} ⟨1, 2, []⟩ {} ⟨(), [], []⟩ = (.ok slice, e) := ⟨_, _, rfl⟩
  obtain ⟨page, e₁, hpage⟩ := hpage
  obtain ⟨slice, e₂, hslice⟩ := hslice
  have hserves : (Store.ofTable Sample.roster).Serves Sample.rosterQuery {} Sample.roster :=
    Store.ofTable_serves rfl rfl (by decide)
  exact ⟨page, slice, e₁, e₂, hpage, hslice,
    page_slice_agree hserves.keeps (by decide) hpage hslice⟩

end EntityQuery
