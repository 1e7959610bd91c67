import EntityQuery.Proofs.Repository.Compiling
import EntityQuery.Proofs.Repository.NativeOrder
import EntityQuery.Proofs.Rows.Unsorted

namespace EntityQuery

/-!
# Counts of a call with an order

Any call can ask for an order, also one that counts rows or asks whether there is any.  A method that is read
against the schema does not let it show: with an order of fields and without one, the call asks the store in
the same way and gets the same answer (`Repository.counts_ignore_order`).  Text for the store is not compiled
again and has nothing to leave out, so that its number is asked for in the order of the rows that it counts
(`Repository.stored_count_ordered`).
-/

variable {σ : Type}

namespace CallArguments

/-- The same call without an order. -/
def unsorted (args : CallArguments) : CallArguments :=
  { args with order := [], page := args.page.map (·.sorted []) }

/-- Arguments without an order have none. -/
@[simp] theorem fullOrder_unsorted (args : CallArguments) : args.unsorted.fullOrder = [] := by
  unfold fullOrder unsorted
  cases args.page <;> rfl

end CallArguments

/-! ### Compiled forms -/

namespace Repository

variable {repository : Repository} {name : String} {d : Definition} {args : CallArguments}
variable {q : Query} {count : Option Statement} {shape : Shape}

/-- **With an order of fields and without one**, a select has a compiled form for a call, and what is counted
    is the same; or its target is left to the call and fits in neither case. -/
theorem compiledFor_unsorted_cases (name : String) (hschema : repository.schema.Checked)
    (hentity : q.entity ∈ repository.schema.entities) (h : d.prepared.Selects repository.schema q count)
    (horder : ∀ directive ∈ args.fullOrder, repository.schema.EndsInField q.entity directive.path) :
    (q.target.isDynamic = true ∧ ∃ fault, repository.compiledFor name d args.unsorted = .error fault ∧
        repository.compiledFor name d args = .error fault) ∨
      ∃ (s s' : Select) (q' : Query), q'.shape = q.shape ∧ s.CountsAlike repository.schema s' ∧
        repository.compiledFor name d args.unsorted =
          .ok (MethodDeclaration.withCount (s.compiled q') count) ∧
        repository.compiledFor name d args =
          .ok (MethodDeclaration.withCount (s'.compiled q') count) := by
  cases htarget : q.target.resolve args.target with
  | error fault =>
    refine .inl ⟨?_, _, compiledFor_of_untargeted h name args.unsorted htarget,
      compiledFor_of_untargeted h name args htarget⟩
    by_contra hknown
    rw [Target.resolve_of_known (Bool.eq_false_iff.2 hknown)] at htarget
    cases htarget
  | ok target =>
    have hplain : repository.compiledFor name d args.unsorted =
        repository.compiledWith name (q.withTarget target) count [] := by
      rw [compiledFor_of_target h name args.unsorted htarget, CallArguments.fullOrder_unsorted]
    rw [hplain, compiledFor_of_target h name args htarget]
    obtain ⟨records, hrecords⟩ := h.exists_records
    rcases Query.compile_sortedBy_cases (q := q.withTarget target) hschema hentity hrecords horder with
      ⟨defect, hfails, hfails'⟩ | ⟨s, s', hs, hs'⟩
    · refine .inl ⟨?_, _, compiledWith_of_defect (by simp) ?_, compiledWith_of_defect horder hfails'⟩
      · by_contra hknown
        -- A known target was compiled before.
        obtain ⟨c, hc⟩ := h.exists_compiled (Bool.eq_false_iff.2 hknown)
        rw [Target.resolve_of_known (Bool.eq_false_iff.2 hknown)] at htarget
        cases htarget
        exact absurd (hfails.symm.trans hc) nofun
      · rw [Query.sortedBy_nil]
        exact hfails
    · refine .inr ⟨s, s', q.withTarget target, rfl,
        Query.countsAlike_sortedBy (q := q.withTarget target) hentity hs hs',
        compiledWith_of_compile (by simp) ?_,
        compiledWith_of_compile horder (Query.compile_eq_ok_iff.2 ⟨s', hs', rfl⟩)⟩
      rw [Query.sortedBy_nil]
      exact Query.compile_eq_ok_iff.2 ⟨s, hs, rfl⟩

/-! ### Calls -/

/-- What a call does to count the rows of a select, or to ask whether there is any. -/
def ask (repository : Repository) (store : Store σ) (name : String) (args : CallArguments)
    (directives : Directives) (s : Select) : Shape → Run σ Response
  | .count => return .count (← repository.fetchCount store name s.count args directives)
  | _ => do
    let window ← (s.existence.window (some 1) 0 : Except ParameterFault _)
    return .existence !(← repository.fetchRows store window args directives).isEmpty

/-- A count or an existence check asks one statement of the select. -/
theorem call_eq_ask {s : Select} (hshape : shape = .count ∨ shape = .existence) (hq : q.shape = shape)
    (hdefinition : repository.definition name shape = .ok d)
    (hcompiled : repository.compiledFor name d args =
      .ok (MethodDeclaration.withCount (s.compiled q) count)) (store : Store σ) (expected : Expected) :
    repository.call store name args expected shape =
      repository.ask store name args d.directives s shape := by
  have hselect : repository.select name args shape =
      .ok (d, MethodDeclaration.withCount (s.compiled q) count) := select_ok_iff.2 ⟨hdefinition, hcompiled⟩
  rcases hshape with rfl | rfl
  · have hcontent : (MethodDeclaration.withCount (s.compiled q) count).content = s.count := by
      simp [MethodDeclaration.withCount, Select.compiled, hq]
    unfold call Repository.count ask
    rw [Run.ok_bind hselect]
    dsimp only
    rw [hcontent]
  -- An existence check asks for one row at most.
  · have hlimited : limited (MethodDeclaration.withCount (s.compiled q) count) =
        s.existence.window (some 1) 0 := by
      simp [limited, MethodDeclaration.withCount, Select.compiled, Select.limitOf, hq]
    unfold call exists? ask
    rw [Run.ok_bind hselect]
    dsimp only
    rw [hlimited]
    simp only [bind_assoc, pure_bind]

/-- What is bound to a statement does not depend on the order of the call. -/
theorem ask_unsorted (store : Store σ) (directives : Directives) (s : Select) :
    repository.ask store name args.unsorted directives s shape =
      repository.ask store name args directives s shape := rfl

/-- A call without rows to show that cannot be compiled does nothing but fail. -/
theorem call_of_fault {fault : Error} (hshape : shape = .count ∨ shape = .existence)
    (hdefinition : repository.definition name shape = .ok d)
    (h : repository.compiledFor name d args = .error fault) (store : Store σ) (expected : Expected)
    (start : Exchange σ) :
    repository.call store name args expected shape start = (.error fault, start) := by
  have hselects : shape ≠ .bulk ∧ shape.isPaged = false := by
    rcases hshape with rfl | rfl <;> exact ⟨nofun, rfl⟩
  obtain ⟨reason, hcall, rfl | ⟨hpaged, _⟩⟩ :=
    call_of_uncompiled hselects.1 hdefinition h store expected
  · exact congrFun hcall start
  · exact absurd (hpaged.symm.trans hselects.2) nofun

/-- **Counts ignore the order.**  Take any method of a repository that counts or asks whether there is any
    row, declared by its name or by a template.  It was prepared as the select of a query.  For all arguments
    with any order of fields of the query's entity, the call and the call without an order ask by two selects,
    in the same way otherwise: by their statements for counting, which are never ordered.  The two statements
    differ in the kinds of their joins at most and give the same answers on every database.  Only if the
    target is left to the call and does not fit, both calls fail for the same reason, and nothing is sent. -/
theorem counts_ignore_order {entities : List Entity} {schema : Schema}
    (hbuilt : Schema.build entities = .ok schema) {declared : RepositoryDeclaration}
    (h : build schema declared = .ok repository) {m : MethodDeclaration} (hm : m ∈ declared.methods)
    (hread : ∀ sql, m.source ≠ .native sql) (hshape : shape = .count ∨ shape = .existence) :
    ∃ d, repository.definitions.lookup m.name = some d ∧ (d.shape = shape →
      ∃ q compiled count, d.prepared = .select q compiled count ∧ ∀ args : CallArguments,
        (∀ directive ∈ args.fullOrder, schema.EndsInField q.entity directive.path) →
        (∃ s s' : Select, s.CountsAlike schema s' ∧
          ∀ {σ : Type} (store : Store σ) (expected : Expected),
            repository.call store m.name args.unsorted expected shape =
              repository.ask store m.name args d.directives s shape ∧
            repository.call store m.name args expected shape =
              repository.ask store m.name args d.directives s' shape) ∨
        (q.target.isDynamic = true ∧ ∃ fault,
          ∀ {σ : Type} (store : Store σ) (expected : Expected) (start : Exchange σ),
            repository.call store m.name args.unsorted expected shape start = (.error fault, start) ∧
            repository.call store m.name args expected shape start = (.error fault, start))) := by
  have hschema := Schema.checked_of_build hbuilt
  obtain ⟨rfl, _, hroot, hmethods⟩ := exists_lookup_of_build h
  obtain ⟨d, hd, hlookup⟩ := hmethods m hm
  refine ⟨d, hlookup, fun hanswers => ?_⟩
  subst hanswers
  have hdefinition : repository.definition m.name d.shape = .ok d :=
    (definition_of_lookup hlookup d.shape).trans (if_pos rfl)
  cases MethodDeclaration.written_of_prepare hschema hroot hd hread with
  -- A change is neither a count nor an existence check.
  | change changes _ =>
    rw [changes] at hshape
    simp at hshape
  | @select q count registered _ _ answers prepares =>
    have hselects := Prepared.Selects.of_prepareSelect prepares
    obtain ⟨compiled, hprepared⟩ := hselects.exists_select
    refine ⟨q, compiled, count, hprepared, fun args horder => ?_⟩
    -- A deferred target can be missing, which is found out before the order is looked at.
    rcases compiledFor_unsorted_cases m.name hschema registered hselects horder with
      ⟨hdeferred, fault, hunsorted, hsorted⟩ | ⟨s, s', q', hq', halike, hunsorted, hsorted⟩
    · exact .inr ⟨hdeferred, fault, fun store expected start =>
        ⟨call_of_fault hshape hdefinition hunsorted store expected start,
          call_of_fault hshape hdefinition hsorted store expected start⟩⟩
    · have hshape' : q'.shape = d.shape := hq'.trans answers
      refine .inl ⟨s, s', halike, fun store expected =>
        ⟨?_, call_eq_ask hshape hshape' hdefinition hsorted store expected⟩⟩
      rw [call_eq_ask hshape hshape' hdefinition hunsorted, ask_unsorted]

end Repository

namespace Sample

/-- The number of the members of a team. -/
def teamSizes : RepositoryDeclaration where
  entity := "Member"
  methods := [{ name := "countByTeamId", source := .derived }]
  unit := 0

/-- The first team, in an order that reads from its table. -/
def firstTeam : CallArguments where
  positional := [.integer 1]
  order := [⟨⟨["team", "id"]⟩, .ascending⟩]

end Sample

/-- The condition needs the team of a member.  Without an order, its join drops the members that have none;
    with the order, it leaves them to the condition. -/
theorem Repository.counts_ignore_order_team :
    ∃ (repository : Repository) (d : Definition),
      build Sample.league Sample.teamSizes = .ok repository ∧
      Sample.sentTexts repository "countByTeamId" .count Sample.firstTeam.unsorted =
        ["SELECT COUNT(*) FROM member t0 JOIN team t1 ON t1.team_id = t0.team_id WHERE t1.team_id = ?"] ∧
      Sample.sentTexts repository "countByTeamId" .count Sample.firstTeam =
        ["SELECT COUNT(*) FROM member t0 LEFT JOIN team t1 ON t1.team_id = t0.team_id WHERE t1.team_id = ?"] ∧
      ∃ s s' : Select, s.CountsAlike Sample.league s' ∧
        ∀ {σ : Type} (store : Store σ) (expected : Expected),
          repository.call store "countByTeamId" Sample.firstTeam.unsorted expected .count =
            repository.ask store "countByTeamId" Sample.firstTeam d.directives s .count ∧
          repository.call store "countByTeamId" Sample.firstTeam expected .count =
            repository.ask store "countByTeamId" Sample.firstTeam d.directives s' .count := by
  have hread : (build Sample.league Sample.teamSizes).toOption.any (fun repository =>
      decide (Sample.sentTexts repository "countByTeamId" .count Sample.firstTeam.unsorted =
        ["SELECT COUNT(*) FROM member t0 JOIN team t1 ON t1.team_id = t0.team_id WHERE t1.team_id = ?"] ∧
      Sample.sentTexts repository "countByTeamId" .count Sample.firstTeam =
        ["SELECT COUNT(*) FROM member t0 LEFT JOIN team t1 ON t1.team_id = t0.team_id WHERE t1.team_id = ?"])
      && (repository.definitions.lookup "countByTeamId").any fun
        | ⟨shape, _, .select q _ _⟩ =>
          decide (shape = .count ∧ q.entity = Sample.member ∧ q.target.isDynamic = false)
        | _ => false) = true := by decide +kernel
  obtain ⟨repository, hbuild, hknown⟩ := any_toOption_iff.1 hread
  obtain ⟨hsent, hmethod⟩ := Bool.and_eq_true_iff.1 hknown
  obtain ⟨hplain, hsorted⟩ := of_decide_eq_true hsent
  obtain ⟨d, hlookup, hcalls⟩ := counts_ignore_order
    (show Schema.build [Sample.team, Sample.member] = .ok Sample.league by decide) hbuild
    (List.mem_cons_self : _ ∈ Sample.teamSizes.methods) nofun (.inl rfl)
  refine ⟨repository, d, hbuild, hplain, hsorted, ?_⟩
  rw [hlookup] at hmethod
  obtain ⟨shape, directives, prepared⟩ := d
  cases prepared with
  | select q compiled count =>
    obtain ⟨rfl, hentity, hknown⟩ := of_decide_eq_true hmethod
    obtain ⟨_, _, _, hprepared, hcalls⟩ := hcalls rfl
    cases hprepared
    -- The target is known, so the call cannot be refused for it.
    rcases hcalls Sample.firstTeam (by rw [hentity]; decide) with halike | ⟨hdeferred, _⟩
    · exact halike
    · exact absurd (hdeferred.symm.trans hknown) nofun
  | native _ => cases hmethod
  | bulk _ _ _ => cases hmethod

/-- **The number of a text is asked for in order.**  The age is a field, and its column is put behind the text
    that counts as it is behind one that lists. -/
theorem Repository.stored_count_ordered :
    Sample.league.EndsInField Sample.member ⟨["age"]⟩ ∧
    ∃ repository, build Sample.league Sample.storedMembers = .ok repository ∧
      Sample.sentTexts repository "countMembers" .count (Sample.ordered ⟨["age"]⟩).unsorted =
        ["SELECT COUNT(*) FROM (select * from member)"] ∧
      Sample.sentTexts repository "countMembers" .count (Sample.ordered ⟨["age"]⟩) =
        ["SELECT COUNT(*) FROM (select * from member) ORDER BY \"age\" DESC"] := by
  have hread : (build Sample.league Sample.storedMembers).toOption.any (fun repository => decide (
      Sample.sentTexts repository "countMembers" .count (Sample.ordered ⟨["age"]⟩).unsorted =
        ["SELECT COUNT(*) FROM (select * from member)"] ∧
      Sample.sentTexts repository "countMembers" .count (Sample.ordered ⟨["age"]⟩) =
        ["SELECT COUNT(*) FROM (select * from member) ORDER BY \"age\" DESC"])) = true := by
    decide +kernel
  obtain ⟨repository, hbuild, hsent⟩ := any_toOption_iff.1 hread
  exact ⟨by decide, repository, hbuild, of_decide_eq_true hsent⟩

end EntityQuery
