import EntityQuery.Proofs.Repository.Prepared
import EntityQuery.Proofs.Repository.Sent
import EntityQuery.Proofs.Result.TableRows

namespace EntityQuery

/-!
# Order of text for the store

A call can ask for the results of a text in an order, which is put behind the text.  A single name stands
there as the column of a declared field, or the call fails before anything is sent; so of a single name no
letter reaches the store.  A nested path is not looked up at all, and its text is what the rows are ordered
by (`Repository.native_order_named`, `Repository.nested_order_spliced`).
-/

/-! ### Terms of an order -/

/-- The statement with the rows in the order of some columns. -/
def Statement.orderedBy (s : Statement) (terms : List (String × Direction)) : Statement :=
  if terms.isEmpty then s
  else s.pushSql (" ORDER BY " ++ ", ".intercalate
    (terms.map fun (column, direction) => "\"" ++ column ++ "\" " ++ direction.sql))

namespace NativeQuery

/-- What a directive orders the rows of a text by: a single name by the column of a field of the entity,
    and a nested path by itself. -/
structure Orders (e : Entity) (directive : SortDirective) (term : String × Direction) : Prop where
  direction : term.2 = directive.direction
  single : directive.path.isNested = false →
    ∃ f ∈ e.fields, f.name = directive.path.leaf ∧ f.column = term.1
  nested : directive.path.isNested = true → term.1 = directive.path.text

/-- No field is meant by the single name of a directive. -/
def Unknown (e : Entity) (directive : SortDirective) : Prop :=
  directive.path.isNested = false ∧ e.columnOf? directive.path.leaf = none

/-- A term of the order names a column, or its single name is unknown to the entity. -/
theorem orderTerm_cases (e : Entity) (directive : SortDirective) :
    (Unknown e directive ∧ orderTerm (some e) directive = .error (.nativeOrder directive.path)) ∨
      ∃ term, Orders e directive term ∧
        orderTerm (some e) directive = .ok ("\"" ++ term.1 ++ "\" " ++ term.2.sql) := by
  unfold orderTerm orderColumn
  dsimp only
  cases hnested : directive.path.isNested with
  | true =>
    exact .inr ⟨(directive.path.text, directive.direction), ⟨rfl, by simp [hnested], fun _ => rfl⟩, rfl⟩
  | false =>
    cases hcolumn : e.columnOf? directive.path.leaf with
    | none => exact .inl ⟨⟨hnested, hcolumn⟩, rfl⟩
    | some column =>
      exact .inr ⟨(column, directive.direction),
        ⟨rfl, fun _ => Entity.exists_field_of_columnOf? hcolumn, by simp [hnested]⟩, rfl⟩

/-- Directives are all turned into terms, or one of them means no field. -/
theorem mapM_orderTerm_cases (e : Entity) (order : SortOrder) :
    (∃ directive ∈ order, Unknown e directive ∧
      order.mapM (orderTerm (some e)) = .error (.nativeOrder directive.path)) ∨
    ∃ terms, List.Forall₂ (Orders e) order terms ∧ order.mapM (orderTerm (some e)) =
      .ok (terms.map fun term => "\"" ++ term.1 ++ "\" " ++ term.2.sql) := by
  induction order with
  | nil => exact .inr ⟨[], .nil, rfl⟩
  | cons directive order ih =>
    rw [List.mapM_cons]
    rcases orderTerm_cases e directive with ⟨hunknown, herror⟩ | ⟨term, hterm, hok⟩
    · exact .inl ⟨directive, List.mem_cons_self, hunknown, by rw [herror]; rfl⟩
    · rw [hok, ok_bind]
      rcases ih with ⟨other, hother, hunknown, herror⟩ | ⟨terms, hterms, hall⟩
      · exact .inl ⟨other, List.mem_cons_of_mem _ hother, hunknown, by rw [herror]; rfl⟩
      · exact .inr ⟨term :: terms, .cons hterm hterms, by rw [hall]; rfl⟩

end NativeQuery

/-- **Text is ordered by terms of known fields**, or it cannot be ordered. -/
theorem Compiled.orderNative_cases {c : Compiled} {e : Entity} (hentity : c.plan.entity = some e)
    (order : SortOrder) :
    (∃ directive ∈ order, NativeQuery.Unknown e directive ∧
      c.orderNative order = .error (.nativeOrder directive.path)) ∨
    ∃ terms, List.Forall₂ (NativeQuery.Orders e) order terms ∧
      c.orderNative order = .ok (c.content.orderedBy terms) := by
  unfold orderNative
  rw [hentity]
  -- Without an order the statement is left as it is.
  cases order with
  | nil => exact .inr ⟨[], .nil, rfl⟩
  | cons first order =>
    rcases NativeQuery.mapM_orderTerm_cases e (first :: order) with
      ⟨directive, hdirective, hunknown, herror⟩ | ⟨terms, hterms, hall⟩
    · exact .inl ⟨directive, hdirective, hunknown, by rw [herror]; rfl⟩
    · refine .inr ⟨terms, hterms, ?_⟩
      rw [hall]
      cases hterms
      rfl

/-! ### Prepared text -/

namespace MethodDeclaration

variable {schema : Schema} {root : Entity} {m : MethodDeclaration} {d : Definition}

/-- The entity that the results of a method given as text belong to. -/
def resultEntity? (schema : Schema) (root : Entity) (m : MethodDeclaration) : Option Entity :=
  match m.entity with
  | none => some root
  | some name => schema.entity? name

/-- Text is prepared as a change, or as a query of its entity. -/
theorem native_of_prepare {sql : String} (hsource : m.source = .native sql)
    (h : m.prepare schema root = .ok d) :
    d.prepared = .bulk (Native.statement sql) root.name m.clears ∨
      ∃ e c, m.resultEntity? schema root = some e ∧ d.prepared = .native c ∧ d.shape ≠ .bulk ∧
        NativeQuery.compile ⟨sql, m.countQuery, some e, m.target, d.shape⟩ = .ok c := by
  unfold prepare at h
  rw [hsource] at h
  obtain ⟨⟨shape, prepared⟩, hfound, hd⟩ := bind_eq_ok_iff.1 h
  cases hd
  unfold prepareNative at hfound
  dsimp only at hfound
  split at hfound
  · cases hfound
    exact .inl rfl
  · rename_i hselects
    -- The entity is the declared one or that of the repository; what follows is the same for both.
    have hcompiled : ∀ e, m.resultEntity? schema root = some e → (do
        let compiled ← (NativeQuery.compile
          ⟨sql, m.countQuery, some e, m.target, m.shape.getD .list⟩ : Except CompileDefect _)
        return (m.shape.getD .list, Prepared.native compiled) : Except Defect _) =
          .ok (shape, prepared) → ∃ e c, m.resultEntity? schema root = some e ∧
            prepared = .native c ∧ shape ≠ .bulk ∧
            NativeQuery.compile ⟨sql, m.countQuery, some e, m.target, shape⟩ = .ok c := by
      intro e he h
      obtain ⟨c, hc, h⟩ := bind_eq_ok_iff.1 h
      cases h
      exact ⟨e, c, he, rfl, hselects, mapError_eq_ok_iff.1 hc⟩
    right
    cases hentity : m.entity with
    | none =>
      rw [hentity] at hfound
      exact hcompiled root (by unfold resultEntity?; rw [hentity]) hfound
    | some name =>
      rw [hentity] at hfound
      dsimp only at hfound
      split at hfound
      · rename_i e he
        exact hcompiled e (by unfold resultEntity?; rw [hentity]; exact he) hfound
      · cases hfound

end MethodDeclaration

/-! ### Calls -/

namespace Repository

variable {repository : Repository} {args : CallArguments} {name : String} {d : Definition} {c : Compiled}

/-- The compiled form of text for a call is what was prepared, in another order. -/
theorem compiledFor_native (hprepared : d.prepared = .native c) :
    repository.compiledFor name d args = (do
      let target ← (c.plan.target.resolve args.target : Except ReadFault _)
      let content ← Defect.within name (monadLift (c.orderNative args.fullOrder))
      return { c with content, plan := { c.plan with target } }) := by
  unfold compiledFor
  rw [hprepared]

/-- A call of a method that was prepared as a change sends nothing but its statement. -/
theorem sends_call_of_bulk {σ : Type} {store : Store σ} {statement : Statement} {entity : String}
    {clears : Bool} (hlookup : repository.definitions.lookup name = some d)
    (hprepared : d.prepared = .bulk statement entity clears) (expected : Expected) (shape : Shape) :
    (repository.call store name args expected shape).Sends (args.BindsOne (· = statement)) := by
  refine (sends_call expected shape).imp fun b ⟨s, hs, hbind⟩ => ⟨s, ?_, hbind⟩
  cases hs with
  -- A change is never compiled, so this case cannot be.
  | compiled h hcompiled =>
    obtain ⟨rfl, _⟩ := eq_of_definition hlookup h
    unfold compiledFor at hcompiled
    rw [hprepared] at hcompiled
    cases hcompiled
  | change h hchange =>
    obtain ⟨rfl, _⟩ := eq_of_definition hlookup h
    rw [hprepared] at hchange
    cases hchange
    rfl

/-- A call of text in an order sends windows of the ordered text, and the text of its count. -/
theorem sends_call_of_native {σ : Type} {store : Store σ} {content : Statement}
    (hlookup : repository.definitions.lookup name = some d) (hprepared : d.prepared = .native c)
    (hordered : c.orderNative args.fullOrder = .ok content) (expected : Expected) (shape : Shape) :
    (repository.call store name args expected shape).Sends (args.BindsOne fun s =>
      c.count = some s ∨ ∃ limit offset, content.window limit offset = .ok s) := by
  refine (sends_call expected shape).imp fun b ⟨s, hs, hbind⟩ => ⟨s, ?_, hbind⟩
  cases hs with
  | compiled h hcompiled offers =>
    obtain ⟨rfl, _⟩ := eq_of_definition hlookup h
    rw [compiledFor_native hprepared, hordered] at hcompiled
    obtain ⟨target, _, hcompiled⟩ := bind_eq_ok_iff.1 hcompiled
    cases hcompiled
    exact offers.symm
  -- And a select is never carried out as a change.
  | change h hchange =>
    obtain ⟨rfl, _⟩ := eq_of_definition hlookup h
    rw [hprepared] at hchange
    cases hchange

/-- A call of text in an order that cannot be had sends nothing.  It fails with a defect of the method,
    unless its page or its target is refused before. -/
theorem call_of_unordered {σ : Type} {store : Store σ} {defect : CompileDefect} {shape : Shape}
    (hlookup : repository.definitions.lookup name = some d) (hprepared : d.prepared = .native c)
    (hselects : d.shape ≠ .bulk) (herror : c.orderNative args.fullOrder = .error defect)
    (expected : Expected) (start : Exchange σ) :
    ∃ reason, repository.call store name args expected shape start = (.error reason, start) ∧
      ((∃ defect, reason = .definition name defect) ∨ repository.requestFor args = .error reason ∨
        ∃ fault, c.plan.target.resolve args.target = .error fault ∧ reason = .reading fault) := by
  have hdefinition := definition_of_lookup hlookup shape
  by_cases hshape : d.shape = shape
  · subst hshape
    have hcompiled : ∃ fault, repository.compiledFor name d args = .error fault ∧
        ((∃ defect, fault = .definition name defect) ∨
          ∃ reading, c.plan.target.resolve args.target = .error reading ∧ fault = .reading reading) := by
      rw [compiledFor_native hprepared, herror]
      -- The target is settled before the order, so its fault comes first.
      cases c.plan.target.resolve args.target with
      | error reading => exact ⟨_, rfl, .inr ⟨reading, rfl, rfl⟩⟩
      | ok target => exact ⟨_, rfl, .inl ⟨_, rfl⟩⟩
    obtain ⟨fault, hcompiled, hfault⟩ := hcompiled
    obtain ⟨reason, hcall, rfl | ⟨_, hrequest⟩⟩ :=
      call_of_uncompiled hselects (hdefinition.trans (if_pos rfl)) hcompiled store expected
    · exact ⟨reason, congrFun hcall start, hfault.imp_right .inr⟩
    · exact ⟨reason, congrFun hcall start, .inr (.inl hrequest)⟩
  · have hcall := call_of_definition_error (hdefinition.trans (if_neg hshape)) store args expected
    exact ⟨_, congrFun hcall start, .inl ⟨_, rfl⟩⟩

/-- **Native sorting names known columns, as far as single names go.**  A method that is given as text and
    changes rows sends its text as it is.  One that selects has an entity, its own or that of the repository.
    In each call of it, whatever the store does,

    * either some single name of the order means no field of the entity, and nothing is sent: the call fails
      with a defect of the method, if not even its page or its target is refused before;
    * or the call sends the text for its count and windows of its content, which is ordered by one term for
      each directive: in double quotes the column of the declared field that has the name, with the
      direction behind it.

    So no letter of a single name is sent; but a nested path stands between the quotes itself. -/
theorem native_order_named {schema : Schema} {declared : RepositoryDeclaration}
    (h : build schema declared = .ok repository) {m : MethodDeclaration} (hm : m ∈ declared.methods)
    {sql : String} (hsource : m.source = .native sql) :
    ∃ d, repository.definitions.lookup m.name = some d ∧
      ((d.prepared = .bulk (Native.statement sql) repository.entity.name m.clears ∧
        ∀ {σ : Type} (store : Store σ) args expected shape,
          (repository.call store m.name args expected shape).Sends
            (args.BindsOne (· = Native.statement sql))) ∨
      ∃ e c, m.resultEntity? schema repository.entity = some e ∧
        NativeQuery.compile ⟨sql, m.countQuery, some e, m.target, d.shape⟩ = .ok c ∧
        ∀ {σ : Type} (store : Store σ) args expected shape,
          ((∃ directive ∈ args.fullOrder, NativeQuery.Unknown e directive) ∧
            ∀ start, ∃ reason,
              repository.call store m.name args expected shape start = (.error reason, start) ∧
              ((∃ defect, reason = .definition m.name defect) ∨
                repository.requestFor args = .error reason ∨
                ∃ fault, m.target.resolve args.target = .error fault ∧ reason = .reading fault)) ∨
          ∃ terms, List.Forall₂ (NativeQuery.Orders e) args.fullOrder terms ∧
            (repository.call store m.name args expected shape).Sends
              (args.BindsOne fun s => c.count = some s ∨
                ∃ limit offset, (c.content.orderedBy terms).window limit offset = .ok s) ∧
            ((∀ directive ∈ args.fullOrder, directive.path.isNested = false) →
              ∀ term ∈ terms, ∃ f ∈ e.fields, term.1 = f.column)) := by
  obtain ⟨rfl, _, _, hmethods⟩ := exists_lookup_of_build h
  obtain ⟨d, hd, hlookup⟩ := hmethods m hm
  refine ⟨d, hlookup, ?_⟩
  rcases MethodDeclaration.native_of_prepare hsource hd with
    hprepared | ⟨e, c, he, hprepared, hselects, hc⟩
  · exact .inl ⟨hprepared, fun store args expected shape =>
      sends_call_of_bulk hlookup hprepared expected shape⟩
  refine .inr ⟨e, c, he, hc, fun store args expected shape => ?_⟩
  have hplan := NativeQuery.plan_of_compile hc
  -- An unknown name refuses the call before anything is sent; otherwise the order stands in what is sent.
  rcases c.orderNative_cases (by rw [hplan]) args.fullOrder with
    ⟨directive, hdirective, hunknown, herror⟩ | ⟨terms, hterms, hordered⟩
  · refine .inl ⟨⟨directive, hdirective, hunknown⟩, fun start => ?_⟩
    have htarget : c.plan.target = m.target := by rw [hplan]
    rw [← htarget]
    exact call_of_unordered hlookup hprepared hselects herror expected start
  · refine .inr ⟨terms, hterms, sends_call_of_native hlookup hprepared hordered expected shape,
      fun hsingle term hterm => ?_⟩
    obtain ⟨directive, hdirective, horders⟩ := exists_left_of_forall₂ hterms hterm
    obtain ⟨f, hf, _, hcolumn⟩ := horders.single (hsingle directive hdirective)
    exact ⟨f, hf, hcolumn.symm⟩

end Repository

namespace Sample

/-- All members, as the store has them, and their number. -/
def storedMembers : RepositoryDeclaration where
  entity := "Member"
  methods := [
    { name := "allMembers", source := .native "select * from member" },
    { name := "countMembers", source := .native "select * from member", shape := some .count }]
  unit := 0

/-- A call that asks for the results in the order of a path. -/
def ordered (path : Path) : CallArguments where
  order := [⟨path, .descending⟩]

/-- What a call sends to a store that answers nothing. -/
def sentTexts (repository : Repository) (name : String) (shape : Shape) (args : CallArguments) :
    List String :=
  (repository.call .scripted name args .anything shape ⟨[], [], []⟩).2.sent.map (·.statement.sql)

end Sample

/-- All members by their age, and by a nickname that they do not have. -/
theorem Repository.native_order_named_members :
    ∃ repository c, build Sample.league Sample.storedMembers = .ok repository ∧
      NativeQuery.compile ⟨"select * from member", none, some Sample.member, .entity, .list⟩ = .ok c ∧
      (repository.call .scripted "allMembers" (Sample.ordered ⟨["age"]⟩) .anything .list).Sends
        ((Sample.ordered ⟨["age"]⟩).BindsOne fun s => c.count = some s ∨
          ∃ limit offset, (c.content.orderedBy [("age", .descending)]).window limit offset = .ok s) ∧
      ∀ start, ∃ reason, repository.call .scripted "allMembers" (Sample.ordered ⟨["nickname"]⟩)
        .anything .list start = (.error reason, start) := by
  have hread : (build Sample.league Sample.storedMembers).toOption.any (fun repository =>
      decide (repository.entity = Sample.member) && (repository.definitions.lookup "allMembers").any fun
        | ⟨shape, _, .native _⟩ => decide (shape = .list)
        | _ => false) = true := by decide +kernel
  obtain ⟨repository, hbuild, hknown⟩ := any_toOption_iff.1 hread
  obtain ⟨hentity, hmethod⟩ := Bool.and_eq_true_iff.1 hknown
  replace hentity := of_decide_eq_true hentity
  obtain ⟨d, hlookup, hcalls⟩ :=
    native_order_named hbuild (List.mem_cons_self : _ ∈ Sample.storedMembers.methods) rfl
  rw [hlookup] at hmethod
  obtain ⟨shape, directives, prepared⟩ := d
  rcases hcalls with ⟨rfl, _⟩ | ⟨e, c, he, hc, hcalls⟩
  · cases hmethod
  obtain rfl : shape = .list := by
    cases prepared with
    | native _ => exact of_decide_eq_true hmethod
    | _ => cases hmethod
  obtain rfl : Sample.member = e := hentity.symm.trans (Option.some.inj he)
  refine ⟨repository, c, hbuild, hc, ?_, fun start => ?_⟩
  · rcases hcalls .scripted (Sample.ordered ⟨["age"]⟩) .anything .list with
      ⟨⟨directive, hdirective, _, hunknown⟩, _⟩ | ⟨terms, hterms, hsends, _⟩
    · cases List.mem_singleton.1 hdirective
      exact absurd hunknown (by decide)
    · obtain ⟨⟨column, direction⟩, rest, ⟨hdirection, hsingle, _⟩, hrest, rfl⟩ :=
        List.forall₂_cons_left_iff.1 hterms
      cases hrest
      obtain rfl : direction = .descending := hdirection
      -- The term's column is that of the field with this name, of which there is one.
      obtain ⟨f, hf, hname, rfl⟩ := hsingle rfl
      have hage : ∀ f ∈ Sample.member.fields, f.name = "age" → f.column = "age" := by decide
      rw [hage f hf hname] at hsends
      exact hsends
  · rcases hcalls .scripted (Sample.ordered ⟨["nickname"]⟩) .anything .list with
      ⟨_, hfails⟩ | ⟨terms, hterms, _⟩
    · obtain ⟨reason, hcall, _⟩ := hfails start
      exact ⟨reason, hcall⟩
    · obtain ⟨_, _, ⟨_, hsingle, _⟩, _⟩ := List.forall₂_cons_left_iff.1 hterms
      obtain ⟨f, hf, hname, _⟩ := hsingle rfl
      have hnone : ∀ f ∈ Sample.member.fields, f.name ≠ "nickname" := by decide
      exact absurd hname (hnone f hf)

/-- **A nested path is sent as it is.**  It names no column, whether it leads to a field of another entity or
    nowhere, and the text between its dots can close the quotes. -/
theorem Repository.nested_order_spliced :
    ∃ repository, build Sample.league Sample.storedMembers = .ok repository ∧
      Sample.sentTexts repository "allMembers" .list (Sample.ordered ⟨["team", "id"]⟩) =
        ["SELECT * FROM (select * from member) AS native_q ORDER BY \"team.id\" DESC"] ∧
      Sample.sentTexts repository "allMembers" .list (Sample.ordered (.parse "id\", 1.0 --")) =
        ["SELECT * FROM (select * from member) AS native_q ORDER BY \"id\", 1.0 --\" DESC"] := by
  have hread : (build Sample.league Sample.storedMembers).toOption.any (fun repository => decide (
      Sample.sentTexts repository "allMembers" .list (Sample.ordered ⟨["team", "id"]⟩) =
        ["SELECT * FROM (select * from member) AS native_q ORDER BY \"team.id\" DESC"] ∧
      Sample.sentTexts repository "allMembers" .list (Sample.ordered (.parse "id\", 1.0 --")) =
        ["SELECT * FROM (select * from member) AS native_q ORDER BY \"id\", 1.0 --\" DESC"])) = true := by
    decide +kernel
  obtain ⟨repository, hbuild, hsent⟩ := any_toOption_iff.1 hread
  exact ⟨repository, hbuild, of_decide_eq_true hsent⟩

end EntityQuery
