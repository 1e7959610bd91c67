import EntityQuery.Proofs.Repository.Alike
import EntityQuery.Proofs.Repository.Defects
import EntityQuery.Proofs.Repository.Deferral
import EntityQuery.Proofs.Repository.Sent

namespace EntityQuery

/-!
# Deferred targets

A method that is declared for a target and one whose target is given with each call are compiled for
the same target in the end, but at another time: what is refused at once in the one way may be refused
with the call in the other.  Runs are compared up to that (`Run.SameOrRefused`), step by step:

* `Repository.compiledFor_of_deferred` and `Repository.refuses_of_unfit` say what becomes of calls;
* `Repository.foldlM_alongside` and `Repository.deferral_foldlM` say what becomes of the methods
  behind;
* `Repository.deferred_targets` compares a whole repository, built and called.

`Repository.deferred_constructor` is a target for which the two ways differ: a constructor over a
written list, whose columns are named after the parameters in one way only.
-/

variable {σ α β : Type}

/-! ### Refused runs -/

namespace Run

/-- The run fails and leaves the exchange as it was. -/
def Refuses (run : Run σ α) : Prop := ∃ fault, ∀ e, run e = (.error fault, e)

/-- Two runs do the same, or both are refused. -/
def SameOrRefused (run run' : Run σ α) : Prop := run = run' ∨ run.Refuses ∧ run'.Refuses

/-- An error refuses whatever the state is. -/
theorem refuses_error (fault : Error) :
    (liftM (.error fault : Except Error α) : Run σ α).Refuses := ⟨fault, fun _ => rfl⟩

/-- What comes behind a refusal is never reached. -/
theorem Refuses.bind {x : Run σ α} (h : x.Refuses) (f : α → Run σ β) : (x >>= f).Refuses := by
  obtain ⟨fault, h⟩ := h
  refine ⟨fault, fun e => ?_⟩
  rw [bind_eq, h]
  rfl

/-- A step that does not look at the exchange fails, or what comes after it does. -/
theorem refuses_bind_of_forall {x : Except Error α} {f : α → Run σ β}
    (h : ∀ a, x = .ok a → (f a).Refuses) : ((liftM x : Run σ α) >>= f).Refuses := by
  cases hx : x with
  | error fault => exact (refuses_error fault).bind f
  | ok a => exact h a hx

end Run

namespace Repository

variable {repository : Repository} {definitions : List (String × Definition)}
variable {target : Target} {d d' : Definition} {args : CallArguments} {name : String}

/-! ### Compiled forms -/

/-- A deferred target is that of the call, and the query is compiled then. -/
theorem compiledFor_dynamic (hknown : target.isDynamic = false) {shape : Shape}
    {directives : Directives} {q : Query} {count : Option Statement} :
    repository.compiledFor name ⟨shape, directives, .select (q.withTarget .dynamic) none count⟩
        { args with target := some target } =
      repository.compiledWith name (q.withTarget target) count args.fullOrder := by
  unfold compiledFor
  show ((liftM (Target.dynamic.resolve (some target)) : Except Error _) >>= _) = _
  rw [Target.resolve_dynamic hknown]
  rfl

/-- **A call for the target** is compiled like one of the method that was declared for it. -/
theorem compiledFor_of_deferred (repository : Repository) (name : String) (args : CallArguments)
    (h : Definition.Deferred repository.schema target d d') (hknown : target.isDynamic = false) :
    repository.compiledFor name d' { args with target := some target } =
      repository.compiledFor name d args := by
  obtain ⟨shape, directives, prepared⟩ := d
  obtain ⟨shape', directives', prepared'⟩ := d'
  obtain ⟨_, _, hprepared⟩ := h
  -- Both compile the same query with the same target, one at the definition and one at the call.
  cases hprepared with
  | @select q compiled count declared compiles =>
    subst declared
    rw [compiledFor_dynamic hknown,
      compiledFor_of_target (.known hknown compiles) name args
        (Target.resolve_of_known hknown args.target)]
  | native declared =>
    subst declared
    unfold compiledFor
    dsimp only
    rw [Target.resolve_dynamic hknown, Target.resolve_of_known hknown]
    rfl
  | bulk => rfl

/-- **No call can be compiled** for a target that does not fit. -/
theorem exists_error_of_unfit (name : String) (args : CallArguments)
    (h : d.prepared.Unfit repository.schema target) (hknown : target.isDynamic = false) :
    ∃ fault, repository.compiledFor name d { args with target := some target } = .error fault := by
  obtain ⟨shape, directives, prepared⟩ := d
  cases h with
  | @select q records count declared compiles fails =>
    subst declared
    rw [compiledFor_dynamic hknown]
    cases hcompiled : repository.compiledWith name (q.withTarget q.target) count args.fullOrder with
    | error fault => exact ⟨fault, rfl⟩
    | ok compiled =>
      -- Without the directives of the call it would have compiled as well.
      obtain ⟨c, hc, _⟩ := exists_compile_of_compiledWith hcompiled
      obtain ⟨_, hok⟩ := Query.exists_compile_of_sortedBy compiles hc
      exact absurd hok (fails _)

/-! ### Calls -/

variable {store : Store σ} {expected : Expected} {shape : Shape}

/-- A call of a method that is no change is refused if it cannot be compiled. -/
theorem refuses_of_compiledFor {fault : Error} (h : repository.definition name shape = .ok d)
    (hcompiled : repository.compiledFor name d args = .error fault)
    (hselects : ∀ statement entity clears, d.prepared ≠ .bulk statement entity clears) :
    (repository.call store name args expected shape).Refuses := by
  by_cases hbulk : shape = .bulk
  · subst hbulk
    refine Run.Refuses.bind ?_ _
    refine Run.refuses_bind_of_forall fun found hfound => ?_
    obtain rfl := Except.ok.inj (h.symm.trans hfound)
    cases hprepared : d.prepared with
    | bulk statement entity clears => exact absurd hprepared (hselects _ _ _)
    | select | native => exact Run.refuses_error _
  · obtain ⟨reason, hcall, _⟩ := call_of_uncompiled hbulk h hcompiled store expected
    rw [hcall]
    exact Run.refuses_error reason

/-- **A call for a target that does not fit** is refused in every shape. -/
theorem refuses_of_unfit (hfound : repository.definitions.lookup name = some d)
    (h : d.prepared.Unfit repository.schema target) (hknown : target.isDynamic = false) :
    (repository.call store name { args with target := some target } expected shape).Refuses := by
  by_cases hshape : d.shape = shape
  · -- The method is found, but only a change would go on without compiling it.
    have hd := (definition_of_lookup hfound shape).trans (if_pos hshape)
    obtain ⟨fault, hcompiled⟩ := exists_error_of_unfit name args h hknown
    refine refuses_of_compiledFor hd hcompiled fun statement entity clears hbulk => ?_
    rw [hbulk] at h
    cases h
  · rw [call_of_definition_error ((definition_of_lookup hfound shape).trans (if_neg hshape))]
    exact Run.refuses_error _

/-- **A call for the target** does what a call of the method does that was declared for it. -/
theorem call_of_deferred (repository : Repository)
    (hfound : repository.definitions.lookup name = some d)
    (hfound' : definitions.lookup name = some d')
    (h : Definition.Deferred repository.schema target d d') (hknown : target.isDynamic = false) :
    { repository with definitions }.call store name { args with target := some target } expected shape =
      repository.call store name args expected shape := by
  have hdefinition := definition_of_lookup hfound shape
  have hdefinition' : { repository with definitions }.definition name shape = _ :=
    definition_of_lookup hfound' shape
  have hcompiled :
      { repository with definitions }.compiledFor name d' { args with target := some target } =
        repository.compiledFor name d args :=
    compiledFor_of_deferred { repository with definitions } name args h hknown
  obtain ⟨found, directives, prepared⟩ := d
  obtain ⟨found', directives', prepared'⟩ := d'
  obtain ⟨rfl, rfl, hprepared⟩ := h
  by_cases hshape : found' = shape
  · have hd := hdefinition.trans (if_pos hshape)
    have hd' := hdefinition'.trans (if_pos hshape)
    -- Both calls go on with the same compiled form, and nothing after it looks at the target.
    cases shape with
    | single | list | count | existence =>
      simp only [call, one, list, count, exists?, select, hd, hd', hcompiled, ok_bind]
      cases repository.compiledFor name _ args <;> rfl
    | page | slice =>
      simp only [call, page, slice, Run.ok_bind hd, Run.ok_bind hd', hcompiled]
      rfl
    | bulk =>
      simp only [call, execute, Run.ok_bind hd, Run.ok_bind hd']
      cases hprepared <;> rfl
  · -- Neither method is declared for this shape, and both are refused with the same words.
    rw [call_of_definition_error (hdefinition.trans (if_neg hshape)),
      call_of_definition_error (hdefinition'.trans (if_neg hshape))]

/-! ### Repositories -/

/-- Definitions of the same names, with two given ones under one of the names. -/
structure Alongside (name : String) (d d' : Definition)
    (definitions definitions' : List (String × Definition)) : Prop where
  names : ∀ other, (definitions.lookup other).isSome = (definitions'.lookup other).isSome
  left : definitions.lookup name = some d
  right : definitions'.lookup name = some d'

section Building

variable {schema : Schema} {entity : Entity} {definitions' : List (String × Definition)}

/-- A new name is found at the end. -/
theorem lookup_append_new (hnew : ¬ (definitions.lookup name).isSome = true) (d : Definition) :
    (definitions ++ [(name, d)]).lookup name = some d := by
  rw [List.lookup_append, Option.not_isSome_iff_eq_none.1 hnew, List.lookup_cons_self]
  rfl

/-- A new name brings its own definition, whatever stands before it. -/
theorem Alongside.of_new (hnew : ¬ (definitions.lookup name).isSome = true) (d d' : Definition) :
    Alongside name d d' (definitions ++ [(name, d)]) (definitions ++ [(name, d')]) := by
  refine ⟨fun other => ?_, lookup_append_new hnew d, lookup_append_new hnew d'⟩
  rw [List.lookup_append, List.lookup_append, List.lookup_cons, List.lookup_cons]
  cases definitions.lookup other <;> cases other == name <;> rfl

/-- A further definition leaves those that are there. -/
theorem Alongside.append (h : Alongside name d d' definitions definitions')
    (more : List (String × Definition)) :
    Alongside name d d' (definitions ++ more) (definitions' ++ more) := by
  refine ⟨fun other => ?_, ?_, ?_⟩
  · rw [List.lookup_append, List.lookup_append, Option.isSome_or, Option.isSome_or, h.names]
  · rw [List.lookup_append, h.left]
    rfl
  · rw [List.lookup_append, h.right]
    rfl

/-- One more method is added to both lists or to neither. -/
theorem addMethod_alongside (h : Alongside name d d' definitions definitions')
    (m : MethodDeclaration) :
    SameOutcome (Alongside name d d') (addMethod schema entity definitions m)
      (addMethod schema entity definitions' m) := by
  unfold addMethod
  rw [h.names]
  dsimp only
  split
  · exact .error _
  · cases m.prepare schema entity with
    | error defect => exact .error _
    | ok added => exact .ok (h.append [(m.name, added)])

/-- So are all further methods. -/
theorem foldlM_alongside (h : Alongside name d d' definitions definitions')
    (methods : List MethodDeclaration) :
    SameOutcome (Alongside name d d') (methods.foldlM (addMethod schema entity) definitions)
      (methods.foldlM (addMethod schema entity) definitions') := by
  induction methods generalizing definitions definitions' with
  | nil => exact .ok h
  | cons m methods ih =>
    rw [List.foldlM_cons, List.foldlM_cons]
    exact (addMethod_alongside h m).bind fun _ _ => ih

/-- What a method that is declared for a target, and the same one with its target deferred, make of
    the definitions before them. -/
abbrev DeferralAmong (schema : Schema) (target : Target) (name : String) :
    Except Error (List (String × Definition)) → Except Error (List (String × Definition)) → Prop :=
  Deferral
    (fun definitions definitions' => ∃ d d', Definition.Deferred schema target d d' ∧
      Alongside name d d' definitions definitions')
    fun definitions' => ∃ d', d'.prepared.Unfit schema target ∧ definitions'.lookup name = some d'

variable {m : MethodDeclaration}

/-- The method itself is added with either target. -/
theorem deferral_addMethod
    (h : Deferral (Definition.Deferred schema target) (fun d => d.prepared.Unfit schema target)
      ({ m with target }.prepare schema entity) ({ m with target := .dynamic }.prepare schema entity))
    (definitions : List (String × Definition)) :
    DeferralAmong schema target m.name (addMethod schema entity definitions { m with target })
      (addMethod schema entity definitions { m with target := .dynamic }) := by
  unfold addMethod
  dsimp only
  split
  · exact .refused _ _
  rename_i hnew
  generalize { m with target }.prepare schema entity = prepared at h ⊢
  generalize { m with target := .dynamic }.prepare schema entity = prepared' at h ⊢
  cases h with
  | refused => exact .refused _ _
  | late defect h => exact .late _ ⟨_, h, lookup_append_new hnew _⟩
  | same h => exact .same ⟨_, _, h, .of_new hnew _ _⟩

/-- The methods behind are added, or one of them is refused both ways. -/
theorem deferral_foldlM {x y : Except Error (List (String × Definition))}
    (h : DeferralAmong schema target name x y) (methods : List MethodDeclaration) :
    DeferralAmong schema target name (x >>= methods.foldlM (addMethod schema entity))
      (y >>= methods.foldlM (addMethod schema entity)) := by
  cases h with
  | refused fault fault' => exact .refused fault fault'
  | @late fault mid h =>
    -- What is found under the name stays there, so the method is unfit afterwards too.
    obtain ⟨d', hunfit, hfound⟩ := h
    show DeferralAmong _ _ _ (.error fault) (methods.foldlM (addMethod schema entity) mid)
    cases hmore : methods.foldlM (addMethod schema entity) mid with
    | error fault' => exact .refused fault fault'
    | ok definitions' => exact .late fault ⟨d', hunfit, (lookup_of_foldlM hmore).2 _ _ hfound⟩
  | @same mid mid' h =>
    -- The same names are taken both ways, so the same methods can be added.
    obtain ⟨d, d', hdeferred, halongside⟩ := h
    show DeferralAmong _ _ _ (methods.foldlM (addMethod schema entity) mid)
      (methods.foldlM (addMethod schema entity) mid')
    have hmore : SameOutcome _ (methods.foldlM (addMethod schema entity) mid)
        (methods.foldlM (addMethod schema entity) mid') := foldlM_alongside halongside methods
    generalize methods.foldlM (addMethod schema entity) mid = more at hmore ⊢
    generalize methods.foldlM (addMethod schema entity) mid' = more' at hmore ⊢
    cases hmore with
    | error fault => exact .refused fault fault
    | ok halongside => exact .same ⟨d, d', hdeferred, halongside⟩

/-- A repository is built of its declaration and called at once. -/
def buildAndCall (schema : Schema) (declaration : RepositoryDeclaration) (store : Store σ)
    (name : String) (args : CallArguments) (expected : Expected) (shape : Shape) : Run σ Response := do
  let repository ← (build schema declaration : Except Error _)
  repository.call store name args expected shape

/-- The definitions are put into a repository, and the method is called. -/
theorem sameOrRefused_of_deferral {x y : Except Error (List (String × Definition))}
    (h : DeferralAmong schema target name x y) (hknown : target.isDynamic = false)
    (paging : PagingSettings) (unit : UnitOfWork) :
    ((liftM (do return ⟨schema, entity, paging, unit, ← x⟩ : Except Error Repository) : Run σ _) >>=
        fun repository => repository.call store name args expected shape).SameOrRefused
      ((liftM (do return ⟨schema, entity, paging, unit, ← y⟩ : Except Error Repository) : Run σ _) >>=
        fun repository =>
          repository.call store name { args with target := some target } expected shape) := by
  cases h with
  | refused fault fault' =>
    exact .inr ⟨(Run.refuses_error fault).bind _, (Run.refuses_error fault').bind _⟩
  | late fault h =>
    -- What building found in the one way, the call finds in the other.
    obtain ⟨d', hunfit, hfound⟩ := h
    exact .inr ⟨(Run.refuses_error fault).bind _, refuses_of_unfit hfound hunfit hknown⟩
  | @same definitions definitions' h =>
    obtain ⟨d, d', hdeferred, halongside⟩ := h
    refine .inl (Eq.symm ?_)
    exact call_of_deferred ⟨schema, entity, paging, unit, definitions⟩
      halongside.left halongside.right hdeferred hknown

end Building

/-- **A deferred target** does what the declared one does, if it takes what is selected: each call of
    the method for the target sends the same statements and is answered the same as one of the method
    that was declared for it, or both are refused, the declared method when its repository is built
    and the deferred one no later than with the call. -/
theorem deferred_targets (schema : Schema) (declaration : RepositoryDeclaration)
    (before after : List MethodDeclaration) (m : MethodDeclaration) {target : Target}
    (hknown : target.isDynamic = false)
    (htakes : ∀ text t, m.source = .template text → Template.parse schema text = .ok (.select t) →
      t.Takes target)
    (store : Store σ) (args : CallArguments) (expected : Expected) (shape : Shape) :
    (buildAndCall schema { declaration with methods := before ++ { m with target } :: after }
        store m.name args expected shape).SameOrRefused
      (buildAndCall schema
        { declaration with methods := before ++ { m with target := .dynamic } :: after }
        store m.name { args with target := some target } expected shape) := by
  unfold buildAndCall build
  dsimp only
  cases schema.entity? declaration.entity with
  | none => exact .inl rfl
  | some entity =>
    refine sameOrRefused_of_deferral ?_ hknown declaration.paging declaration.unit
    -- The methods are added in order: those before, the one that is compared, and those behind it.
    rw [List.foldlM_append, List.foldlM_append]
    refine .of_common fun definitions => ?_
    rw [List.foldlM_cons, List.foldlM_cons]
    exact deferral_foldlM (deferral_addMethod (m.deferral_prepare hknown htakes) definitions) after

end Repository

namespace Sample

/-- A method with a written list of two columns. -/
def agesMethod : MethodDeclaration where
  name := "ages"
  source := .template "select m.age, m.id from Member m"

/-- The names that the columns of a list are written under. -/
def writtenLabels : Template → List String
  | .select t => t.selections.map (·.label)
  | .bulk _ => []

/-- The ages of the members, for a target that is declared, or one that is given with the call. -/
def callAges (declared : Target) (given : Option Target) : Run (List Reply) Response :=
  Repository.buildAndCall league
    { entity := "Member", methods := [{ agesMethod with target := declared }], unit := 0 }
    .scripted "ages" { target := given } .anything .list

/-- A constructor whose parameters are the columns of the list. -/
def aged : Target := .constructor ⟨"Aged", ["age", "id"]⟩

/-- A constructor that calls the columns of the list by other names. -/
def renamed : Target := .constructor ⟨"Aged", ["years", "number"]⟩

/-- A store that answers with one row, under the given columns. -/
def oneMember (columns : List String) : Exchange (List Reply) :=
  ⟨[.rows ⟨columns, [[.integer 30, .integer 7]]⟩], [], []⟩

end Sample

/-- The ages with a target that takes the list, given at once or with the call. -/
theorem Repository.deferred_targets_aged :
    (∀ text t, Sample.agesMethod.source = .template text →
        Template.parse Sample.league text = .ok (.select t) → t.Takes Sample.aged) ∧
      (Sample.callAges Sample.aged none).SameOrRefused (Sample.callAges .dynamic Sample.aged) ∧
      (Sample.callAges .dynamic Sample.aged
        (Sample.oneMember ["age", "id"])).1.toOption.isSome = true := by
  have hlabels : (Template.parse Sample.league "select m.age, m.id from Member m").toOption.map
      Sample.writtenLabels = some ["age", "id"] := by decide +kernel
  have htakes : ∀ text t, Sample.agesMethod.source = .template text →
      Template.parse Sample.league text = .ok (.select t) → t.Takes Sample.aged := by
    rintro text t ⟨⟩ ht
    rw [ht] at hlabels
    exact .inr (Option.some.inj hlabels).symm
  exact ⟨htakes, deferred_targets Sample.league ⟨"Member", [], {}, 0⟩ [] [] Sample.agesMethod rfl htakes
    .scripted {} .anything .list, by decide +kernel⟩

/-- **The columns of a list are not named after the parameters** of a constructor that is given with
    the call. -/
theorem Repository.deferred_constructor :
    (Sample.callAges Sample.renamed none
        (Sample.oneMember ["years", "number"])).2.sent.map (·.statement.sql) =
      ["SELECT t0.age AS \"years\", t0.member_id AS \"number\" FROM member t0 " ++
        "ORDER BY t0.member_id ASC"] ∧
      (Sample.callAges .dynamic Sample.renamed
        (Sample.oneMember ["years", "number"])).2.sent.map (·.statement.sql) =
      ["SELECT t0.age AS \"age\", t0.member_id AS \"id\" FROM member t0 " ++
        "ORDER BY t0.member_id ASC"] ∧
      ¬ (Sample.callAges Sample.renamed none).SameOrRefused
        (Sample.callAges .dynamic Sample.renamed) := by
  have hdeclared : (Sample.callAges Sample.renamed none
      (Sample.oneMember ["years", "number"])).2.sent.map (·.statement.sql) =
        ["SELECT t0.age AS \"years\", t0.member_id AS \"number\" FROM member t0 " ++
          "ORDER BY t0.member_id ASC"] := by decide +kernel
  have hdeferred : (Sample.callAges .dynamic Sample.renamed
      (Sample.oneMember ["years", "number"])).2.sent.map (·.statement.sql) =
        ["SELECT t0.age AS \"age\", t0.member_id AS \"id\" FROM member t0 " ++
          "ORDER BY t0.member_id ASC"] := by decide +kernel
  refine ⟨hdeclared, hdeferred, ?_⟩
  -- The labels differ, so the two calls are neither the same nor both refused.
  rintro (hsame | ⟨⟨fault, hrefused⟩, _⟩)
  · rw [hsame, hdeferred] at hdeclared
    revert hdeclared
    decide
  · -- A call that is refused sends nothing.
    rw [hrefused] at hdeclared
    cases hdeclared

end EntityQuery
