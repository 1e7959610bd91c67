import EntityQuery.Proofs.Repository.Answered
import EntityQuery.Proofs.Result.Listed
import EntityQuery.Proofs.Result.Parameters
import EntityQuery.Proofs.Template.Selected

namespace EntityQuery

/-!
# Constructors in calls

A call that returned results of a constructor was answered with rows of a select, and each result has
an argument for each parameter, recovered from the cell of its name (`Repository.exists_built_of_call`).
For a template with a list these are the values of its paths in written order, for a method that is
described by its name those of the fields that the parameters name
(`Repository.constructor_arguments`).
-/

variable {σ : Type}

/-- Results of a constructor, one for each of the first rows, with the arguments in the order of the
    parameters. -/
def Constructor.Builds (shape : Constructor) (rows : RowSet)
    (good : List Value → List (String × Value) → Prop) (results : List Received) : Prop :=
  List.Forall₂ (fun values received => ∃ arguments,
    received = .projected (.arguments ⟨shape.type, arguments⟩) ∧
      arguments.map Prod.fst = shape.parameters ∧ good values arguments)
    (rows.rows.take results.length) results

/-- Each argument is recovered from the cell at its place. -/
def SelectList.InOrder (list : SelectList) (values : List Value) (arguments : List (String × Value)) :
    Prop :=
  List.Forall₂ (fun cell argument => cell.1.read cell.2 = .ok argument.2) (list.cells values) arguments

/-- Each argument whose parameter names a field is recovered from a cell for that field. -/
def Select.ByName (schema : Schema) (s : Select) (values : List Value)
    (arguments : List (String × Value)) : Prop :=
  ∀ argument ∈ arguments, ∀ path, schema.NamesField s.root argument.1 path →
    ∃ cell ∈ s.list.cells values, cell.1.StandsFor schema s path ∧ cell.1.read cell.2 = .ok argument.2

/-- Each parameter that names a field, and shares its spelling with no other property, has a column for
    that field. -/
def Select.Finds (schema : Schema) (s : Select) (shape : Constructor) : Prop :=
  ∀ parameter ∈ shape.parameters, ∀ path, schema.NamesField s.root parameter path →
    (∀ other, IsProperty schema s.root other → other.IsLowerCamel → other.camelCase = parameter →
      other = path) →
    ∃ c ∈ s.list.columns, c.label = parameter ∧ c.StandsFor schema s path

/-- A call was answered with rows of a select over an entity, and each of its results calls a
    constructor with the values of a row.  Only a slice may leave out a row. -/
structure Repository.Built (repository : Repository) (store : Store σ) (args : CallArguments)
    (kind : Shape) (e : Exchange σ) (response : Response) (root : Entity) (shape : Constructor)
    (s : Select) (rows : RowSet) (good : List Value → List (String × Value) → Prop) : Prop where
  compiled : ∃ q, Select.ofQuery repository.schema q = .ok s
  root : s.root = root
  fetched : repository.Fetches store args s.content e rows
  all : kind ≠ .slice → response.results.length = rows.length
  builds : s.list.Fits rows → shape.Builds rows good response.results

/-- Arguments are handed on as they are. -/
theorem Received.eq_of_ofProjected {expected : Expected} {arguments : Arguments} {received : Received}
    (h : ofProjected expected (.arguments arguments) = .ok received) :
    received = .projected (.arguments arguments) := by
  cases expected <;> cases h <;> rfl

/-- What is known of the arguments may be weakened. -/
theorem Constructor.Builds.imp {shape : Constructor} {rows : RowSet} {results : List Received}
    {good good' : List Value → List (String × Value) → Prop}
    (h : shape.Builds rows good results)
    (himp : ∀ values ∈ rows.rows, ∀ arguments, good values arguments → good' values arguments) :
    shape.Builds rows good' results := by
  refine ((List.forall₂_and_left _ _).2 ⟨fun values hvalues => List.mem_of_mem_take hvalues, h⟩).imp ?_
  rintro values received ⟨hvalues, arguments, rfl, hnames, hgood⟩
  exact ⟨arguments, rfl, hnames, himp values hvalues arguments hgood⟩

/-- So it may over a whole call. -/
theorem Repository.Built.imp {repository : Repository} {store : Store σ} {args : CallArguments}
    {kind : Shape} {e : Exchange σ} {response : Response} {root : Entity} {shape : Constructor}
    {s : Select} {rows : RowSet} {good good' : List Value → List (String × Value) → Prop}
    (h : repository.Built store args kind e response root shape s rows good)
    (himp : ∀ values, values.length = s.list.columns.length → ∀ arguments, good values arguments →
      good' values arguments) :
    repository.Built store args kind e response root shape s rows good' :=
  ⟨h.compiled, h.root, h.fetched, h.all, fun hfits => (h.builds hfits).imp fun values hvalues =>
    himp values (hfits.rectangular values hvalues)⟩

/-- Where a constructor selects its columns itself, what fills its parameters is found by the fields
    that they name. -/
theorem Select.byName_of_fills {schema : Schema} {q : Query} {s : Select} {shape : Constructor}
    {values : List Value} {arguments : List (String × Value)} (h : Select.ofQuery schema q = .ok s)
    (hlist : SelectList.ofQuery schema q = SelectList.ofConstructor schema q.entity shape)
    (hfills : s.list.Fills values shape arguments) : s.ByName schema values arguments := by
  intro argument hargument path hnamed
  obtain ⟨parameter, hparameter, rfl, cell, hcell, hlabel, hread⟩ :=
    exists_left_of_forall₂ hfills hargument
  refine ⟨cell, hcell, ?_, hread⟩
  -- Columns are found by their labels, and a label is a parameter's name or that of the marker.
  rcases Select.mem_columns_of_constructor h hlist (List.of_mem_zip hcell).1 with
    ⟨other, hother, hstands⟩ | ⟨hmarker, hnone⟩
  · rw [hlabel] at hother
    rwa [SelectList.eq_of_parameterPath? hnamed hother] at hstands
  · -- The only column is none of a parameter, and its label is no camel-case name.
    rw [hlabel] at hmarker
    cases hnamed with
    | written ends =>
      have hfound := SelectList.parameterPath?_of_endsInField ends
      rw [hnone _ hparameter] at hfound
      cases hfound
    | spelled _ field spelling =>
      obtain ⟨r, hr, _⟩ := field.ends
      have hcamel := (Path.isLowerCamel_camelCase field.names (resolved_of_resolve hr).nonempty).1
      rw [spelling, hmarker] at hcamel
      exact absurd hcamel (by decide)

namespace Repository

variable {repository : Repository} {store : Store σ} {name : String} {args : CallArguments}
variable {expected : Expected} {kind : Shape} {e e' : Exchange σ} {response : Response}
variable {shape : Constructor} {d : Definition} {q : Query} {count : Option Statement}

/-- What is mapped for a constructor is filled from the cells of the select. -/
theorem builds_of_maps {list : SelectList} {plan : MappingPlan} {rows : RowSet}
    {received : List Received} (htarget : plan.target = .constructor shape)
    (htypes : plan.types = list.types) (hfits : list.Fits rows)
    (h : repository.Maps plan rows expected received) :
    shape.Takes list.labels ∧
      shape.Builds rows (fun values arguments => list.Fills values shape arguments) received := by
  obtain ⟨results, hresults, hreceived⟩ := h
  obtain ⟨hcolumns, hrectangular⟩ := hfits
  have htakes : shape.Takes list.labels :=
    hcolumns ▸ ((Mapping.exists_mapRows_iff htarget).1 ⟨results, hresults⟩).1
  refine ⟨htakes, ?_⟩
  -- Each row has one value for each column.
  have hlength : ∀ values ∈ (rows.take received.length).rows,
      values.length = (rows.take received.length).columns.length := fun values hvalues => by
    rw [hrectangular values (List.mem_of_mem_take hvalues), ← list.length_labels, ← hcolumns]
    rfl
  have hall := Mapping.receives_of_mapRows htarget hlength hresults
  rw [RowSet.toRows, List.forall₂_map_left_iff] at hall
  refine (forall₂_trans hall hreceived).imp ?_
  rintro values received ⟨_, ⟨arguments, rfl, hreceives⟩, hprojected⟩
  rw [htypes, show (rows.take _).columns = list.labels from hcolumns] at hreceives
  have hfills := SelectList.fills_of_receives htakes hreceives
  exact ⟨arguments, Received.eq_of_ofProjected hprojected, hfills.map_fst, hfills⟩

/-- **A call of a constructor**: the select that it was compiled to, and the rows that its results were
    built from. -/
theorem exists_built_of_call
    (hlookup : repository.definitions.lookup name = some d)
    (hprepared : MethodDeclaration.prepareSelect repository.schema q count = .ok d.prepared)
    (hshape : q.shape = d.shape) (htarget : q.target.resolve args.target = .ok (.constructor shape))
    (hresults : kind.givesResults = true)
    (h : repository.call store name args expected kind e = (.ok response, e')) :
    ∃ s rows order,
      Select.ofQuery repository.schema ((q.withTarget (.constructor shape)).sortedBy order) = .ok s ∧
      repository.Built store args kind e response q.entity shape s rows fun values arguments =>
        s.list.Fills values shape arguments ∧ shape.Takes s.list.labels := by
  obtain ⟨d', compiled, rows, hd, hcompiled, hfetches, hmaps, hall⟩ :=
    exists_answer_of_call hresults h
  obtain ⟨rfl, rfl⟩ := eq_of_definition hlookup hd
  obtain ⟨target, s, hresolve, hs, hcontent, hplan⟩ :=
    exists_select_of_compiledFor hprepared (hshape ▸ hresults) hcompiled
  -- The call's target is the constructor, so that is what the query is compiled with.
  obtain rfl := Except.ok.inj (htarget.symm.trans hresolve)
  rw [hcontent] at hfetches
  rw [hplan] at hmaps
  obtain ⟨_, _, _, hroot, _⟩ := Select.exists_run_of_ofQuery hs
  refine ⟨s, rows, _, hs, ⟨_, hs⟩, hroot, hfetches, hall, fun hfits => ?_⟩
  obtain ⟨htakes, hbuilds⟩ := builds_of_maps rfl rfl hfits hmaps
  exact hbuilds.imp fun _ _ _ hfills => ⟨hfills, htakes⟩

/-- A call that returned results has the shape of its definition. -/
theorem shape_of_call (hlookup : repository.definitions.lookup name = some d)
    (hresults : kind.givesResults = true)
    (h : repository.call store name args expected kind e = (.ok response, e')) : d.shape = kind := by
  obtain ⟨_, _, _, hd, _⟩ := exists_answer_of_call hresults h
  exact (eq_of_definition hlookup hd).2

/-- **A template with a list**: each argument is the value of the path at its place. -/
theorem exists_built_of_template {m : MethodDeclaration} {root : Entity} {text : String}
    {t : SelectTemplate} (hlookup : repository.definitions.lookup m.name = some d)
    (hprepare : m.prepare repository.schema root = .ok d) (hsource : m.source = .template text)
    (hparse : Template.parse repository.schema text = .ok (.select t))
    (hshape : m.Constructs t args.target shape) (hresults : kind.givesResults = true)
    (h : repository.call store m.name args expected kind e = (.ok response, e')) :
    ∃ s rows,
      List.Forall₂ (fun sel c => SelectColumn.StandsFor repository.schema s sel.path c) t.selections
        s.list.columns ∧
      repository.Built store args kind e response t.entity shape s rows s.list.InOrder := by
  obtain ⟨q, count, hprepared, hentity, hqshape, htemplate⟩ :=
    MethodDeclaration.exists_query_of_template hsource hparse hprepare
  obtain ⟨htarget, hne, hpaths, hlabels⟩ :=
    MethodDeclaration.constructs_of_templateTarget (Template.selects_of_parse hparse) hshape htemplate
  obtain ⟨s, rows, order, hs, hbuilt⟩ :=
    exists_built_of_call hlookup hprepared hqshape htarget hresults h
  -- The columns are those of the list, under the names of the parameters.
  have hlist : SelectList.ofQuery repository.schema
      ((q.withTarget (.constructor shape)).sortedBy order) =
        SelectList.ofSelections repository.schema q.entity q.selections := by
    show (if q.selections.isEmpty then _ else _) = _
    rw [if_neg (by simpa using hne)]
    rfl
  have hpathColumns : List.Forall₂ (fun path c => SelectColumn.StandsFor repository.schema s path c)
      (q.selections.map (·.path)) s.list.columns :=
    List.forall₂_map_left_iff.2 ((Select.forall₂_selections hs hlist).imp fun _ _ hc => hc.2)
  rw [hpaths, List.forall₂_map_left_iff] at hpathColumns
  have hnames : shape.parameters = s.list.labels := by
    rw [Select.labels_selections hs hlist]
    exact hlabels.symm
  refine ⟨s, rows, hpathColumns, hentity ▸ hbuilt.imp fun values hvalues arguments hfills => ?_⟩
  exact hfills.1.forall₂_cells hvalues hnames hfills.2

/-- **A method that is described by its name**: each parameter that names a field is given the value of
    that field. -/
theorem exists_built_of_derived {m : MethodDeclaration} {root : Entity}
    (hlookup : repository.definitions.lookup m.name = some d)
    (hprepare : m.prepare repository.schema root = .ok d) (hsource : m.source = .derived)
    (htarget : m.target.resolve args.target = .ok (.constructor shape))
    (hresults : kind.givesResults = true)
    (h : repository.call store m.name args expected kind e = (.ok response, e')) :
    ∃ s rows, s.Finds repository.schema shape ∧
      repository.Built store args kind e response root shape s rows (s.ByName repository.schema) := by
  have hbulk : d.shape ≠ .bulk := by
    rw [shape_of_call hlookup hresults h]
    rintro rfl
    cases hresults
  obtain ⟨q, hprepared, rfl, hqshape, hselections, hdeclared⟩ :=
    MethodDeclaration.exists_query_of_derived hsource hprepare hbulk
  rw [← hdeclared] at htarget
  obtain ⟨s, rows, order, hs, hbuilt⟩ :=
    exists_built_of_call hlookup hprepared hqshape htarget hresults h
  -- A derived method writes no selections, so the columns are those of the parameters.
  have hlist : SelectList.ofQuery repository.schema
      ((q.withTarget (.constructor shape)).sortedBy order) =
        SelectList.ofConstructor repository.schema q.entity shape := by
    show (if q.selections.isEmpty then _ else _) = _
    rw [hselections]
    rfl
  refine ⟨s, rows, ?_, hbuilt.imp fun values hvalues arguments hfills => ?_⟩
  · exact fun parameter hparameter path hnamed halone =>
      Select.exists_column_of_parameter hs hlist hparameter
        (SelectList.parameterPath?_of_namesField hnamed halone)
  · exact Select.byName_of_fills hs hlist hfills.1

/-- **Constructors never take the wrong column.**  Rows can be mapped to a constructor exactly if each of
    its parameters names one column and all values can be recovered; then the arguments are those of
    the columns with the names of the parameters, in their order.  So a call of a declared method that
    returned results has given, for each row,

    * with a template that has a list, for a constructor that is declared or written in it, the
      recovered values of the paths, one after the other;
    * with a method that is described by its name, for a constructor that is declared or given with the
      call, the recovered value of the field that a parameter names, if it names one. -/
theorem constructor_arguments :
    (∀ (schema : Schema) (plan : MappingPlan) (shape : Constructor) (rows : RowSet),
      plan.target = .constructor shape →
        ((∃ results, Mapping.mapRows schema plan rows = .ok results) ↔
          shape.Takes rows.columns ∧ rows.Recovers plan.types) ∧
        ∀ results, Mapping.mapRows schema plan rows = .ok results →
          (∀ values ∈ rows.rows, values.length = rows.columns.length) →
          List.Forall₂ (fun row result => ∃ arguments, result = .arguments ⟨shape.type, arguments⟩ ∧
            shape.Receives plan.types row arguments) rows.toRows results) ∧
    ∀ {σ : Type} (store : Store σ) {schema : Schema} {declared : RepositoryDeclaration}
      {repository : Repository} {m : MethodDeclaration} {shape : Constructor} {args : CallArguments}
      {expected : Expected} {kind : Shape} {e e' : Exchange σ} {response : Response},
      build schema declared = .ok repository → m ∈ declared.methods → kind.givesResults = true →
      repository.call store m.name args expected kind e = (.ok response, e') →
        (∀ text t, m.source = .template text → Template.parse schema text = .ok (.select t) →
          m.Constructs t args.target shape →
          ∃ s rows,
            List.Forall₂ (fun sel c => SelectColumn.StandsFor schema s sel.path c) t.selections
              s.list.columns ∧
            repository.Built store args kind e response t.entity shape s rows s.list.InOrder) ∧
        (m.source = .derived → m.target.resolve args.target = .ok (.constructor shape) →
          ∃ s rows, s.Finds schema shape ∧
            repository.Built store args kind e response repository.entity shape s rows
              (s.ByName schema)) := by
  refine ⟨fun schema plan shape rows htarget => ⟨Mapping.exists_mapRows_iff htarget,
    fun results hresults hlength => Mapping.receives_of_mapRows htarget hlength hresults⟩, ?_⟩
  intro σ store schema declared repository m shape args expected kind e e' response hbuild hm hresults h
  obtain ⟨rfl, _, _, hmethods⟩ := exists_lookup_of_build hbuild
  obtain ⟨d, hprepare, hlookup⟩ := hmethods m hm
  exact ⟨fun text t hsource hparse hshape =>
      exists_built_of_template hlookup hprepare hsource hparse hshape hresults h,
    fun hsource htarget => exists_built_of_derived hlookup hprepare hsource htarget hresults h⟩

end Repository

namespace Sample

/-- A line has a member and a team. -/
def line : Constructor := ⟨"Line", ["member", "team"]⟩

/-- A card has the identifier of a team and an age. -/
def card : Constructor := ⟨"Card", ["teamId", "age"]⟩

/-- The members with their teams. -/
def linesText : String := "select m.id, t.id from Member m join m.team t"

/-- The members with their teams, and the members of an age. -/
def cards : RepositoryDeclaration where
  entity := "Member"
  methods := [
    { name := "lines", source := .template linesText, target := .constructor line },
    { name := "findByAge", source := .derived, target := .constructor card }]
  unit := 0

/-- The store answers with one row. -/
def oneRow (columns : List String) (values : List Value) : Exchange (List Reply) :=
  ⟨[.rows ⟨columns, [values]⟩], [], []⟩

/-- The lines are called over one row. -/
def callLines (repository : Repository) : Except Error Response × Exchange (List Reply) :=
  repository.call .scripted "lines" {} .anything .list
    (oneRow ["member", "team"] [.integer 7, .integer 2])

/-- The cards are called for an age over one row. -/
def callCards (repository : Repository) : Except Error Response × Exchange (List Reply) :=
  repository.call .scripted "findByAge" { positional := [.integer 30] } .anything .list
    (oneRow ["teamId", "age"] [.integer 2, .integer 30])

/-- A row with the columns of a line in another order. -/
def turned : RowSet := ⟨["team", "member"], [[.integer 2, .integer 7]]⟩

end Sample

/-- A written list that names its columns like nothing in the constructor, and a derived method whose
    columns are found by the parameters' names. -/
theorem Repository.constructor_arguments_cards :
    (∃ results, Mapping.mapRows Sample.league { target := .constructor Sample.line } Sample.turned =
        .ok results ∧
      List.Forall₂ (fun row result => ∃ arguments, result = .arguments ⟨"Line", arguments⟩ ∧
        Sample.line.Receives [] row arguments) Sample.turned.toRows results) ∧
    ∃ repository, build Sample.league Sample.cards = .ok repository ∧
      (∃ t response e s rows, Template.parse Sample.league Sample.linesText = .ok (.select t) ∧
        Sample.callLines repository = (.ok response, e) ∧
        repository.Built .scripted {} .list (Sample.oneRow ["member", "team"] [.integer 7, .integer 2])
          response t.entity Sample.line s rows s.list.InOrder) ∧
      ∃ response e s rows, Sample.callCards repository = (.ok response, e) ∧
        s.Finds Sample.league Sample.card ∧
        repository.Built .scripted { positional := [.integer 30] } .list
          (Sample.oneRow ["teamId", "age"] [.integer 2, .integer 30]) response repository.entity
          Sample.card s rows (s.ByName Sample.league) := by
  obtain ⟨hmapping, hcalls⟩ := constructor_arguments
  refine ⟨?_, ?_⟩
  · obtain ⟨hmapped, hreceives⟩ :=
      hmapping Sample.league { target := .constructor Sample.line } Sample.line Sample.turned rfl
    obtain ⟨results, hresults⟩ := hmapped.2 ⟨by decide, fun _ _ cell _ => ⟨cell.2, rfl⟩⟩
    exact ⟨results, hresults, hreceives results hresults (by decide)⟩
  · have hread : (build Sample.league Sample.cards).toOption.any (fun repository =>
        (Sample.callLines repository).1.toOption.isSome &&
          (Sample.callCards repository).1.toOption.isSome) = true := by decide +kernel
    -- Both labels of the written list are the same, so only their order can tell the values apart.
    have hlabels : (Template.parse Sample.league Sample.linesText).toOption.map
        Sample.writtenLabels = some ["id", "id"] := by decide +kernel
    have hok : ∀ {p : Except Error Response × Exchange (List Reply)}, p.1.toOption.isSome = true →
        ∃ response e, p = (.ok response, e) := by
      rintro ⟨_ | response, e⟩ h
      · cases h
      · exact ⟨response, e, rfl⟩
    obtain ⟨repository, hbuild, hcalled⟩ := any_toOption_iff.1 hread
    obtain ⟨hlines, hcards⟩ := Bool.and_eq_true_iff.1 hcalled
    refine ⟨repository, hbuild, ?_, ?_⟩
    · obtain ⟨response, e, hcall⟩ := hok hlines
      obtain ⟨template, hparse, hwritten⟩ := Option.map_eq_some_iff.1 hlabels
      rw [toOption_eq_some_iff] at hparse
      cases template with
      | bulk => cases hwritten
      | select t =>
        have hne : t.selections ≠ [] := by
          intro hnone
          rw [Sample.writtenLabels, hnone] at hwritten
          cases hwritten
        obtain ⟨s, rows, _, hbuilt⟩ := (hcalls .scripted hbuild List.mem_cons_self rfl hcall).1 _ t rfl
          hparse (.inl ⟨rfl, hne⟩)
        exact ⟨t, response, e, s, rows, hparse, hcall, hbuilt⟩
    · obtain ⟨response, e, hcall⟩ := hok hcards
      obtain ⟨s, rows, hfinds, hbuilt⟩ := (hcalls .scripted hbuild
        (List.mem_cons_of_mem _ List.mem_cons_self) rfl hcall).2 rfl rfl
      exact ⟨response, e, s, rows, hcall, hfinds, hbuilt⟩

end EntityQuery
