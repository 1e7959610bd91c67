import EntityQuery.Proofs.Method.Modifiers
import EntityQuery.Proofs.Paging.Windows
import EntityQuery.Proofs.Repository.Defects

namespace EntityQuery

/-!
# Limits of derived methods

A method that is described by its name can bring a limit, as `findTop2ByAge` does.  Over a store that
answers honestly (`Store.Honest`), the call of such a method is answered from the first of the rows
that match (`Repository.Within`): a list with their results, a single result from two of them at most,
and the question whether there is any as without a limit.  What matches is told by the query of the
same method without its limit (`Repository.limited_answers`).

A count is an exception, its limit is left out (`Repository.limited_count_counts_all`).
-/

variable {σ α β : Type}

/-! ### Work with a known end -/

/-- Work that ends in the same way, whatever was exchanged before it. -/
def Run.Gives (x : Run σ α) (answer : Except Error α) : Prop := ∀ e, (x e).1 = answer

namespace Run.Gives

/-- Sequences answer one after the other. -/
theorem bind {x : Run σ α} {f : α → Run σ β} {answer : Except Error α}
    {next : α → Except Error β} (h : x.Gives answer) (hnext : ∀ a, (f a).Gives (next a)) :
    (x >>= f).Gives (answer >>= next) := by
  intro e
  rw [Run.bind_eq, h e]
  cases answer with
  | error fault => rfl
  | ok a => exact hnext a (x e).2

theorem pure (a : α) : (Pure.pure a : Run σ α).Gives (.ok a) := fun _ => rfl

theorem throw (fault : Error) : (MonadExcept.throw fault : Run σ α).Gives (.error fault) :=
  fun _ => rfl

theorem reading (x : Except ReadFault α) : (liftM x : Run σ α).Gives (x.mapError .reading) :=
  fun _ => rfl

/-- A parameter that is at hand is passed on. -/
theorem of_parameter {x : Except ParameterFault α} {a : α} (h : x = .ok a) {f : α → Run σ β}
    {answer : Except Error β} (hnext : (f a).Gives answer) :
    ((liftM x : Run σ α) >>= f).Gives answer := by
  subst h
  exact hnext

/-- Nothing comes after a parameter that is refused. -/
theorem of_refused {x : Except ParameterFault α} {fault : ParameterFault} (h : x = .error fault)
    (f : α → Run σ β) : ((liftM x : Run σ α) >>= f).Gives (.error (.parameter fault)) := by
  subst h
  exact fun _ => rfl

/-- The last step makes a response of what came before. -/
theorem map {x : Run σ α} {answer : Except Error α} (h : x.Gives answer) (f : α → β) :
    (x >>= fun a => Pure.pure (f a)).Gives (answer.map f) := by
  have hmapped := h.bind fun a => pure (f a)
  rwa [show (answer >>= fun a => .ok (f a)) = answer.map f by cases answer <;> rfl] at hmapped

/-- A store that always answers the statement with the same rows gives these. -/
theorem fetch {store : Store σ} {statement : Bound} {directives : Directives}
    {answer : Except Error RowSet}
    (h : ∀ state, (store.fetch statement directives state).1 = answer) :
    (Run.fetch store statement directives).Gives answer := fun e => h e.state

end Run.Gives

/-! ### Stores that answer honestly -/

/-- **A store that answers honestly** to a query in a shape: it serves the rows that match, or tells
    their number. -/
structure Store.Honest (store : Store σ) (shape : Shape) (compiled : Compiled)
    (args : CallArguments) (table : RowSet) : Prop where
  serves : shape ≠ .count → store.Serves compiled args table
  counts : shape = .count → ∃ bound, compiled.content.bind args.lookup = .ok bound ∧
    ∀ directives state, ∃ answer, (store.fetch bound directives state).1 = .ok answer ∧
      answer.Counts table.length

/-- Cutting twice is cutting to the shorter length. -/
theorem RowSet.take_take (table : RowSet) (m n : Nat) :
    (table.take n).take m = table.take (min n m) := by
  simp [take, List.take_take, Nat.min_comm]

/-- A cut that leaves room for a row leaves one where there is any. -/
theorem RowSet.isEmpty_take (table : RowSet) {n : Nat} (h : 0 < n) :
    (table.take n).isEmpty = table.isEmpty := by
  obtain ⟨columns, rows⟩ := table
  obtain ⟨n, rfl⟩ := Nat.exists_eq_add_one_of_ne_zero (Nat.pos_iff_ne_zero.1 h)
  cases rows <;> rfl

/-- A cut leaves at most that many rows. -/
theorem RowSet.length_take (table : RowSet) (n : Nat) :
    (table.take n).length = min n table.length := by
  simp [take, length]

/-- Too many rows for a word cannot be asked for. -/
theorem Statement.window_of_overflow (s : Statement) {limit : Nat} (h : signedLimit ≤ limit)
    (offset : Nat) : s.window (some limit) offset = .error (.windowTooLarge limit) := by
  have hbound : windowBound limit = .error (.windowTooLarge limit) := by
    rw [windowBound_eq]
    beta_reduce
    rw [signedWord?_natCast, if_neg (Nat.not_lt.2 h)]
    rfl
  unfold window
  dsimp only
  rw [hbound]
  rfl

namespace Repository

variable {repository : Repository} {store : Store σ} {name : String} {args : CallArguments}
variable {expected : Expected} {compiled : Compiled} {table : RowSet} {d : Definition} {n : Nat}
variable {shape : Shape} {plan : MappingPlan} {directives : Directives}

/-! ### Answers over rows -/

/-- The results of all rows. -/
def resultsOf (repository : Repository) (plan : MappingPlan) (expected : Expected) (rows : RowSet) :
    Except Error (List Received) := do
  let results ← (Mapping.mapRows repository.schema plan rows : Except ReadFault _)
  (results.mapM (Received.ofProjected expected) : Except ReadFault _)

/-- The only one of some results, if there is any. -/
def onlyOf (name : String) : List Projected → Except Error (Option Projected)
  | [] => .ok none
  | [result] => .ok (some result)
  | _ => .error (.ambiguous name)

/-- The result of the only row, if there is any; no more than two rows are looked at. -/
def resultOf (repository : Repository) (name : String) (plan : MappingPlan) (expected : Expected)
    (rows : RowSet) : Except Error (Option Received) := do
  let results ← (Mapping.mapRows repository.schema plan (rows.take 2) : Except ReadFault _)
  let result ← onlyOf name results
  (result.mapM (Received.ofProjected expected) : Except ReadFault _)

/-- **Answers within a limit**, over the rows that match. -/
inductive Within (repository : Repository) (name : String) (plan : MappingPlan) (expected : Expected)
    (table : RowSet) (n : Nat) : Shape → Except Error Response → Prop where
  | list (fits : n < signedLimit) :
    Within repository name plan expected table n .list
      ((repository.resultsOf plan expected (table.take n)).map .list)
  /-- The limit is no number that a statement can hold. -/
  | refused (overflows : signedLimit ≤ n) :
    Within repository name plan expected table n .list (.error (.parameter (.windowTooLarge n)))
  | single :
    Within repository name plan expected table n .single
      ((repository.resultOf name plan expected (table.take n)).map .one)
  /-- As without a limit. -/
  | existence :
    Within repository name plan expected table n .existence (.ok (.existence !table.isEmpty))
  /-- All rows are counted. -/
  | count : Within repository name plan expected table n .count (.ok (.count table.length))

/-- Each row gives one result. -/
theorem length_of_resultsOf {rows : RowSet} {received : List Received}
    (h : repository.resultsOf plan expected rows = .ok received) : received.length = rows.length := by
  obtain ⟨results, hresults, hreceived⟩ := bind_eq_ok_iff.1 h
  rw [← Mapping.length_of_mapRows (mapError_eq_ok_iff.1 hresults)]
  exact (listMapM_eq_ok_iff.1 (mapError_eq_ok_iff.1 hreceived)).length_eq.symm

/-- A fault of reading is no ambiguity. -/
theorem reading_ne_ambiguous (x : Except ReadFault α) :
    x.mapError Error.reading ≠ .error (.ambiguous name) := by
  cases x <;> exact nofun

/-- Only several results are ambiguous. -/
theorem one_lt_length_of_onlyOf {results : List Projected} {fault : Error}
    (h : onlyOf name results = .error fault) : 1 < results.length := by
  match results, h with
  | _ :: _ :: rest, _ =>
    rw [List.length_cons, List.length_cons]
    omega

/-- Where the result is ambiguous, there are two rows or more. -/
theorem one_lt_length_of_resultOf {rows : RowSet}
    (h : repository.resultOf name plan expected rows = .error (.ambiguous name)) :
    1 < rows.length := by
  rcases bind_eq_error_iff.1 h with h | ⟨results, hresults, h⟩
  · exact absurd h (reading_ne_ambiguous _)
  have hlength := Mapping.length_of_mapRows (mapError_eq_ok_iff.1 hresults)
  rw [RowSet.length_take] at hlength
  rcases bind_eq_error_iff.1 h with h | ⟨_, _, h⟩
  · have hresults := one_lt_length_of_onlyOf h
    omega
  · exact absurd h (reading_ne_ambiguous _)

/-! ### Steps over an honest store -/

/-- A store that answers a statement in every state gives those rows. -/
theorem gives_fetchRows {statement : Statement} {bound : Bound} {rows : RowSet}
    (hbound : statement.bind args.lookup = .ok bound)
    (h : ∀ directives state, (store.fetch bound directives state).1 = .ok rows)
    (directives : Directives) :
    (repository.fetchRows store statement args directives).Gives (.ok rows) := by
  unfold fetchRows
  exact .of_parameter hbound (.fetch (h (repository.sending directives)))

/-- Mapping rows gives the same results in every state. -/
theorem gives_mapRows (plan : MappingPlan) (rows : RowSet) (directives : Directives) :
    (repository.mapRows plan rows directives : Run σ _).Gives
      ((Mapping.mapRows repository.schema plan rows).mapError .reading) := by
  intro e
  cases hmapped : Mapping.mapRows repository.schema plan rows with
  | ok results => exact congrArg Prod.fst (mapRows_ok_iff.2 ⟨hmapped, rfl⟩)
  | error fault =>
    unfold mapRows
    rw [hmapped]
    rfl

/-- The rows of a window from the first row on. -/
theorem gives_fetchRows_window (repository : Repository)
    (hstore : store.Serves compiled args table) {limit : Nat} {window : Statement}
    (hwindow : compiled.content.window (some limit) 0 = .ok window)
    (directives : Directives) :
    (repository.fetchRows store window args directives).Gives (.ok (table.take limit)) := by
  obtain ⟨bound, hbound, hrows⟩ := hstore.window hwindow
  exact gives_fetchRows hbound hrows directives

/-- So the results of a window are those of the table cut to it. -/
theorem gives_fetchResults (repository : Repository)
    (hstore : store.Serves compiled args table) {limit : Nat} {window : Statement}
    (hwindow : compiled.content.window (some limit) 0 = .ok window)
    (plan : MappingPlan) (directives : Directives) :
    (repository.fetchResults store window plan args directives).Gives
      ((Mapping.mapRows repository.schema plan (table.take limit)).mapError .reading) :=
  (repository.gives_fetchRows_window hstore hwindow directives).bind fun rows =>
    gives_mapRows plan rows directives

/-- One result is the only one of them. -/
theorem gives_fetchSingle {statement : Statement} {results : Except Error (List Projected)}
    (h : (repository.fetchResults store statement plan args directives).Gives results) :
    (repository.fetchSingle store name statement plan args directives).Gives
      (results >>= onlyOf name) := by
  refine h.bind fun results => ?_
  match results with
  | [] => exact .pure none
  | [result] => exact .pure (some result)
  | _ :: _ :: _ => exact .throw _

/-- A store that counts right gives the total. -/
theorem gives_fetchCount {statement : Statement} {bound : Bound} {total : Nat}
    (hbound : statement.bind args.lookup = .ok bound)
    (h : ∀ directives state, ∃ answer, (store.fetch bound directives state).1 = .ok answer ∧
      answer.Counts total) (directives : Directives) :
    (repository.fetchCount store name statement args directives).Gives (.ok total) := by
  intro e
  obtain ⟨answer, hanswer, hcounts⟩ := h (repository.sending directives) e.state
  have hfetch := Run.fetch_ok_iff.2 ⟨_, Prod.ext hanswer rfl, rfl⟩
  exact congrArg Prod.fst
    (fetchCount_ok_iff.2 ⟨answer, fetchRows_ok_iff.2 ⟨bound, hbound, hfetch⟩, countOf_eq hcounts⟩)

/-! ### Calls within a limit -/

/-- A limit that is a signed word becomes a window. -/
theorem limited_of_fits (hlimit : compiled.limit = some n) (hfits : n < signedLimit) :
    ∃ window, limited compiled = .ok window ∧ compiled.content.window (some n) 0 = .ok window := by
  have hzero : 0 < signedLimit := by decide
  have hwindow : compiled.content.window (some n) 0 = .ok (compiled.content.windowed n 0) :=
    Statement.window_eq_ok_iff.2 ⟨hfits, hzero, rfl⟩
  exact ⟨_, by rw [limited, hlimit, hwindow], hwindow⟩

/-- A list has the results of the first rows. -/
theorem gives_list (hselect : repository.select name args .list = .ok (d, compiled))
    (hstore : store.Serves compiled args table) (hlimit : compiled.limit = some n)
    (hfits : n < signedLimit) (expected : Expected) :
    (repository.list store name args expected).Gives
      (repository.resultsOf compiled.plan expected (table.take n)) := by
  obtain ⟨window, hlimited, hwindow⟩ := limited_of_fits hlimit hfits
  have hresults := repository.gives_fetchResults hstore hwindow compiled.plan d.directives
  unfold list
  rw [Run.ok_bind hselect]
  exact .of_parameter hlimited (hresults.bind fun _ => .reading _)

/-- A list that asks for more rows than a word can hold is refused. -/
theorem gives_list_of_overflow (hselect : repository.select name args .list = .ok (d, compiled))
    (hlimit : compiled.limit = some n) (hoverflows : signedLimit ≤ n) (store : Store σ)
    (expected : Expected) :
    (repository.list store name args expected).Gives (.error (.parameter (.windowTooLarge n))) := by
  have hlimited : limited compiled = .error (.windowTooLarge n) := by
    rw [limited, hlimit]
    exact compiled.content.window_of_overflow hoverflows 0
  unfold list
  rw [Run.ok_bind hselect]
  exact .of_refused hlimited _

/-- A single result is looked for in the first two rows, or in the first one. -/
theorem gives_one (hselect : repository.select name args .single = .ok (d, compiled))
    (hstore : store.Serves compiled args table) (hlimit : compiled.limit = some (min n 2))
    (expected : Expected) :
    (repository.one store name args expected).Gives
      (repository.resultOf name compiled.plan expected (table.take n)) := by
  have hfits : min n 2 < signedLimit := Nat.lt_of_le_of_lt (Nat.min_le_right n 2) (by decide)
  obtain ⟨window, hlimited, hwindow⟩ := limited_of_fits hlimit hfits
  have hresults := repository.gives_fetchResults hstore hwindow compiled.plan d.directives
  rw [← table.take_take] at hresults
  unfold one resultOf
  rw [Run.ok_bind hselect]
  refine .of_parameter hlimited ?_
  rw [← bind_assoc]
  exact (gives_fetchSingle hresults).bind fun _ => .reading _

/-- Whether there is any row is seen from the first one. -/
theorem gives_exists? (hselect : repository.select name args .existence = .ok (d, compiled))
    (hstore : store.Serves compiled args table) (hlimit : compiled.limit = some 1) :
    (repository.exists? store name args).Gives (.ok !table.isEmpty) := by
  obtain ⟨window, hlimited, hwindow⟩ := limited_of_fits hlimit (by decide)
  have hrows := repository.gives_fetchRows_window hstore hwindow d.directives
  rw [← table.isEmpty_take Nat.one_pos]
  unfold exists?
  rw [Run.ok_bind hselect]
  exact .of_parameter hlimited (hrows.map _)

/-- A count looks at no limit. -/
theorem gives_count (hselect : repository.select name args .count = .ok (d, compiled))
    (hstore : store.Honest .count compiled args table) :
    (repository.count store name args).Gives (.ok table.length) := by
  obtain ⟨bound, hbound, hcounts⟩ := hstore.counts rfl
  unfold count
  rw [Run.ok_bind hselect]
  exact gives_fetchCount hbound hcounts d.directives

/-- A select with a limit that is no page is answered within it. -/
theorem within_of_honest {q : Query}
    (hprepared : MethodDeclaration.prepareSelect repository.schema q none = .ok d.prepared)
    (hshape : q.shape = d.shape) (hlimit : q.limit = some n) (hselects : d.shape ≠ .bulk)
    (hwhole : d.shape.isPaged = false) (hfound : repository.definitions.lookup name = some d)
    (hcompiled : repository.compiledFor name d args = .ok compiled)
    (hstore : store.Honest d.shape compiled args table) (expected : Expected) (e : Exchange σ) :
    repository.Within name compiled.plan expected table n d.shape
      (repository.call store name args expected d.shape e).1 := by
  have hselect : repository.select name args d.shape = .ok (d, compiled) :=
    select_ok_iff.2 ⟨(definition_of_lookup hfound d.shape).trans (if_pos rfl), hcompiled⟩
  -- Sorting and the target of a call leave the limit of the method as it is.
  have hlimited : compiled.limit = Select.limitOf d.shape (some n) := by
    obtain ⟨target, c, _, hc, rfl⟩ :=
      exists_compile_of_compiledFor (.of_prepareSelect hprepared) hcompiled
    obtain ⟨s, _, rfl⟩ := Query.compile_eq_ok_iff.1 hc
    rw [← hlimit, ← hshape]
    rfl
  generalize d.shape = shape at *
  cases shape with
  | bulk => exact absurd rfl hselects
  | page | slice => cases hwhole
  | list =>
    have hserves := hstore.serves (by decide)
    -- Only the limit of a list comes from the method's name; the others are one row, two rows or none.
    by_cases hfits : n < signedLimit
    · rw [call, ((gives_list hselect hserves hlimited hfits expected).map Response.list) e]
      exact .list hfits
    · have hoverflows := Nat.not_lt.1 hfits
      have hrefused := gives_list_of_overflow hselect hlimited hoverflows store expected
      rw [call, (hrefused.map Response.list) e]
      exact .refused hoverflows
  | single =>
    rw [call, ((gives_one hselect (hstore.serves (by decide)) hlimited expected).map Response.one) e]
    exact .single
  | existence =>
    rw [call, ((gives_exists? hselect (hstore.serves (by decide)) hlimited).map Response.existence) e]
    exact .existence
  | count =>
    rw [call, ((gives_count hselect hstore).map Response.count) e]
    exact .count

/-! ### Answers within a limit -/

namespace Within

variable {answer : Except Error Response}

/-- A list has as many results as the limit lets through. -/
theorem length_list (h : repository.Within name plan expected table n shape answer)
    {received : List Received} (hanswer : answer = .ok (.list received)) :
    received.length = min n table.length := by
  cases h with
  | refused | existence | count => cases hanswer
  | single =>
    obtain ⟨result, _, hresult⟩ := map_eq_ok_iff.1 hanswer
    cases hresult
  | list =>
    obtain ⟨results, hresults, hlist⟩ := map_eq_ok_iff.1 hanswer
    cases hlist
    rw [length_of_resultsOf hresults, RowSet.length_take]

/-- Only a limit above one can show an ambiguity. -/
theorem one_lt_of_ambiguous (h : repository.Within name plan expected table n shape answer)
    (hanswer : answer = .error (.ambiguous name)) : 1 < n ∧ 1 < table.length := by
  cases h with
  | refused | existence | count => cases hanswer
  | single =>
    have hmany := one_lt_length_of_resultOf (map_eq_error_iff.1 hanswer)
    rw [RowSet.length_take, Nat.lt_min] at hmany
    exact hmany
  | list =>
    rcases bind_eq_error_iff.1 (map_eq_error_iff.1 hanswer) with h | ⟨_, _, h⟩
    all_goals exact absurd h (reading_ne_ambiguous _)

end Within

/-- The query of a call without the limit that the method's name brings. -/
def unlimited (repository : Repository) (m : MethodDeclaration) (shape : Shape) (parsed : MethodQuery)
    (target : Target) (args : CallArguments) : Query :=
  ((MethodDeclaration.derivedQuery repository.entity m shape { parsed with limit := none }).withTarget
    target).sortedBy args.fullOrder

/-- **Limits are applied.**  Take any method of a repository that is described by its name, and
    whose name brings a limit.  The limit is not zero, and the method is neither a delete nor read
    in parts.  It is compiled for every call with an order that it admits, if its target is known,
    and what is compiled asks for the same rows as the query without the limit, in the same order.
    Over every store that answers honestly, the call is answered within the limit: a list has the
    results of the first rows, as many as the limit says or as there are, a single result is
    ambiguous only if the limit and the number of rows exceed one, and whether there is any row
    does not depend on the limit.  Only a count is that of all rows. -/
theorem limited_answers {entities : List Entity} {schema : Schema}
    (hbuilt : Schema.build entities = .ok schema) {declared : RepositoryDeclaration}
    (h : build schema declared = .ok repository) {m : MethodDeclaration} (hm : m ∈ declared.methods)
    (hsource : m.source = .derived) {parsed : MethodQuery}
    (hparsed : MethodQuery.parse schema repository.entity m.name = .ok parsed)
    (hlimit : parsed.limit = some n) :
    0 < n ∧ ∃ d, repository.definitions.lookup m.name = some d ∧
      d.shape ≠ .bulk ∧ d.shape.isPaged = false ∧ ∀ args : CallArguments,
      (m.target.isDynamic = false → d.Admits schema args.fullOrder →
        ∃ compiled, repository.compiledFor m.name d args = .ok compiled) ∧
      ∀ compiled, repository.compiledFor m.name d args = .ok compiled →
        (∃ target c, m.target.resolve args.target = .ok target ∧
          (repository.unlimited m d.shape parsed target args).compile schema = .ok c ∧
          compiled.content = c.content ∧ compiled.plan = c.plan) ∧
        ∀ {σ : Type} (store : Store σ) (table : RowSet), store.Honest d.shape compiled args table →
          ∀ (expected : Expected) (e : Exchange σ), ∃ answer,
            (repository.call store m.name args expected d.shape e).1 = answer ∧
            repository.Within m.name compiled.plan expected table n d.shape answer ∧
            (∀ received, answer = .ok (.list received) → received.length = min n table.length) ∧
            (answer = .error (.ambiguous m.name) → 1 < n ∧ 1 < table.length) := by
  have hschema := Schema.checked_of_build hbuilt
  obtain ⟨rfl, _, hroot, hmethods⟩ := exists_lookup_of_build h
  obtain ⟨d, hd, hlookup⟩ := hmethods m hm
  have hpos : 0 < n := by
    obtain ⟨_, _, hread⟩ := MethodQuery.exists_readFrom_of_parse hparsed
    have hne := MethodQuery.limit_ne_zero hread.limit
    rw [hlimit] at hne
    exact Nat.pos_of_ne_zero fun hzero => hne (congrArg some hzero)
  refine ⟨hpos, d, hlookup, ?_⟩
  rcases MethodDeclaration.prepare_cases hd with ⟨_, hderived⟩ | ⟨_, hother, _⟩ | ⟨_, hother, _⟩
  · obtain ⟨_, hfound, _, hwhole, ⟨_, hnone, _⟩ | ⟨hselects, hprepared⟩⟩ :=
      MethodDeclaration.exists_parsed_of_prepareDerived hderived
    all_goals cases hparsed.symm.trans hfound
    · -- A delete has no limit.
      cases hlimit.symm.trans hnone
    replace hwhole := hwhole (by rw [hlimit]; rfl)
    refine ⟨hselects, hwhole, fun args => ⟨fun hknown hadmits => ?_,
      fun compiled hcompiled => ⟨?_, fun store table hstore expected e => ?_⟩⟩⟩
    · obtain ⟨compiled, hcompiled, _⟩ := exists_compiledFor m.name hschema
        (MethodDeclaration.ready_of_prepare hschema hroot hd hknown) hselects hadmits
      exact ⟨compiled, hcompiled⟩
    · obtain ⟨target, c, htarget, hc, rfl⟩ :=
        exists_compile_of_compiledFor (.of_prepareSelect hprepared) hcompiled
      obtain ⟨s, hs, rfl⟩ := Query.compile_eq_ok_iff.1 hc
      -- The select of a query does not look at its limit.
      exact ⟨target, _, htarget, Query.compile_eq_ok_iff.2 ⟨s, hs, rfl⟩, rfl, rfl⟩
    · have hwithin :=
        within_of_honest hprepared rfl hlimit hselects hwhole hlookup hcompiled hstore expected e
      exact ⟨_, rfl, hwithin, fun _ => hwithin.length_list, hwithin.one_lt_of_ambiguous⟩
  all_goals cases hsource.symm.trans hother

end Repository

/-! ### Two of three members -/

/-- One text without values, and no count beside it. -/
def Compiled.isPlain : Compiled → Bool
  | ⟨⟨[.sql _]⟩, none, _, _⟩ => true
  | _ => false

/-- A store that keeps one table is honest for every plain statement. -/
theorem Store.ofTable_honest {compiled : Compiled} {table : RowSet} (h : compiled.isPlain = true)
    (htable : table.length < signedLimit) (shape : Shape) (args : CallArguments) :
    (Store.ofTable table).Honest shape compiled args table := by
  unfold Compiled.isPlain at h
  split at h
  · refine ⟨fun _ => ⟨fun hwindow => ?_, nofun⟩, fun _ => ?_⟩
    · exact Store.window_ofTable rfl hwindow args table
    · exact ⟨_, rfl, fun _ _ => ⟨_, rfl, _, rfl, toInt_ofInt_natCast htable⟩⟩
  · cases h

namespace Sample

/-- The first two members, as a list and as a number. -/
def topMembers : RepositoryDeclaration where
  entity := "Member"
  methods := [{ name := "findTop2", source := .derived }, { name := "countTop2", source := .derived }]
  unit := 0

/-- The answer to a call over the three members. -/
def answerOverRoster (repository : Repository) (name : String) (shape : Shape) :
    Except Error Response :=
  (repository.call (Store.ofTable roster) name {} .anything shape ⟨(), [], []⟩).1

/-- What was read from a name has a limit of two, and is compiled to one text for a shape. -/
def readsTop2 (repository : Repository) (name : String) (shape : Shape) : Bool :=
  (MethodQuery.parse league repository.entity name).toOption.any (·.limit == some 2) &&
  (repository.definitions.lookup name).any fun d =>
    d.shape == shape && (repository.compiledFor name d {}).toOption.any Compiled.isPlain

/-- What the check over the repository says. -/
theorem of_readsTop2 {repository : Repository} {name : String} {shape : Shape}
    (h : readsTop2 repository name shape = true) :
    (∃ parsed, MethodQuery.parse league repository.entity name = .ok parsed ∧ parsed.limit = some 2) ∧
      ∃ d compiled, repository.definitions.lookup name = some d ∧ d.shape = shape ∧
        repository.compiledFor name d {} = .ok compiled ∧
        (Store.ofTable roster).Honest shape compiled {} roster := by
  obtain ⟨hparsed, hdefined⟩ := Bool.and_eq_true_iff.1 h
  obtain ⟨parsed, hparsed, hlimit⟩ := any_toOption_iff.1 hparsed
  obtain ⟨d, hlookup, hcompiles⟩ := (Option.any_eq_true _ _).1 hdefined
  obtain ⟨hshape, hcompiles⟩ := Bool.and_eq_true_iff.1 hcompiles
  obtain ⟨compiled, hcompiled, hplain⟩ := any_toOption_iff.1 hcompiles
  exact ⟨⟨parsed, hparsed, beq_iff_eq.1 hlimit⟩, d, compiled, hlookup, beq_iff_eq.1 hshape, hcompiled,
    Store.ofTable_honest hplain (by decide) shape {}⟩

end Sample

/-- Of three members, the list has the first two. -/
theorem Repository.limited_answers_findTop2 :
    ∃ repository received, build Sample.league Sample.topMembers = .ok repository ∧
      Sample.answerOverRoster repository "findTop2" .list = .ok (.list received) ∧
      received.length = min 2 Sample.roster.length := by
  have hread : (build Sample.league Sample.topMembers).toOption.any (fun repository =>
      Sample.readsTop2 repository "findTop2" .list &&
      (Sample.answerOverRoster repository "findTop2" .list).toOption.any
        fun | .list _ => true | _ => false) = true := by decide +kernel
  obtain ⟨repository, hbuild, hread⟩ := any_toOption_iff.1 hread
  obtain ⟨hread, hanswers⟩ := Bool.and_eq_true_iff.1 hread
  obtain ⟨response, hresponse, hlist⟩ := any_toOption_iff.1 hanswers
  obtain ⟨⟨parsed, hparsed, hlimit⟩, d, compiled, hlookup, hshape, hcompiled, hstore⟩ :=
    Sample.of_readsTop2 hread
  obtain ⟨_, d', hlookup', _, _, hcalls⟩ := limited_answers
    (show Schema.build [Sample.team, Sample.member] = .ok Sample.league by decide) hbuild
    (List.mem_cons_self : _ ∈ Sample.topMembers.methods) rfl hparsed hlimit
  -- The method is found once under its name.
  cases hlookup.symm.trans hlookup'
  obtain ⟨answer, hanswer, _, hlength, _⟩ := ((hcalls {}).2 compiled hcompiled).2
    (Store.ofTable Sample.roster) Sample.roster (hshape ▸ hstore) .anything ⟨(), [], []⟩
  rw [hshape] at hanswer
  cases response with
  | list received =>
    exact ⟨repository, received, hbuild, hresponse, hlength received (hanswer.symm.trans hresponse)⟩
  | one | page | slice | count | existence | change => cases hlist

/-- **A count leaves its limit out.**  Its name brings a limit of two, and three members are
    counted. -/
theorem Repository.limited_count_counts_all :
    ∃ repository parsed d compiled, build Sample.league Sample.topMembers = .ok repository ∧
      MethodQuery.parse Sample.league repository.entity "countTop2" = .ok parsed ∧
      parsed.limit = some 2 ∧
      repository.definitions.lookup "countTop2" = some d ∧ d.shape = .count ∧
      repository.compiledFor "countTop2" d {} = .ok compiled ∧
      (Store.ofTable Sample.roster).Honest .count compiled {} Sample.roster ∧
      Sample.answerOverRoster repository "countTop2" .count = .ok (.count 3) ∧
      min 2 Sample.roster.length = 2 := by
  have hread : (build Sample.league Sample.topMembers).toOption.any (fun repository =>
      Sample.readsTop2 repository "countTop2" .count &&
      (Sample.answerOverRoster repository "countTop2" .count).toOption.any
        fun | .count rows => rows == 3 | _ => false) = true := by decide +kernel
  obtain ⟨repository, hbuild, hread⟩ := any_toOption_iff.1 hread
  obtain ⟨hread, hanswers⟩ := Bool.and_eq_true_iff.1 hread
  obtain ⟨response, hresponse, hcount⟩ := any_toOption_iff.1 hanswers
  obtain ⟨⟨parsed, hparsed, hlimit⟩, d, compiled, hlookup, hshape, hcompiled, hstore⟩ :=
    Sample.of_readsTop2 hread
  refine ⟨repository, parsed, d, compiled, hbuild, hparsed, hlimit, hlookup, hshape, hcompiled, hstore,
    ?_, by decide⟩
  -- The answer is a count, and it is that of all three members.
  cases response with
  | count rows =>
    rw [hresponse, beq_iff_eq.1 hcount]
  | one | list | page | slice | existence | change => cases hcount

end EntityQuery
